import Mathlib.Tactic

/-!
The bounded history of the terminals that had the focus, and the profile that
it is saved as.
-/

namespace Yaade.Mux.FocusHistory

open List Option

def maxTerminalFocusEntries : Nat := 128
def maxTerminalFocusBytes : Nat := 32 * 1024

def isWord (text : List Char) : Bool :=
  text ≠ [] && text.all fun c => c.isAlphanum || c == '_' || c == '-'

/-- `/^tag[A-Za-z0-9_-]+$/` of at most 256 units. -/
def isResource (tag text : String) : Bool :=
  text.length ≤ 256 && tag.toList.isPrefixOf text.toList && isWord (text.toList.drop tag.length)

/-- An identity that the schema accepts; the generation is a safe integer. -/
structure TerminalFocusIdentity where
  serverId : String
  sessionId : String
  tabId : String
  terminalId : String
  generation : Nat
  valid : (serverId.length ≤ 48 && isWord serverId.toList && isResource "ses-" sessionId &&
    isResource "tab-" tabId && isResource "term-" terminalId &&
    decide (generation < 2 ^ 53)) = true
  deriving DecidableEq

/-- `\u001f` -/
def unitSeparator : Char := Char.ofNat 0x1f

def terminalFocusIdentityKey (identity : TerminalFocusIdentity) : List Char :=
  [unitSeparator].intercalate [identity.serverId.toList, identity.sessionId.toList,
    identity.tabId.toList, identity.terminalId.toList, Nat.toDigits 10 identity.generation]

/-- The accepted texts hold nothing that JSON escapes. -/
def identityJson (identity : TerminalFocusIdentity) : String :=
  "\x7b\"serverId\":\"" ++ identity.serverId ++ "\",\"sessionId\":\"" ++ identity.sessionId ++
    "\",\"tabId\":\"" ++ identity.tabId ++ "\",\"terminalId\":\"" ++ identity.terminalId ++
      "\",\"generation\":" ++ identity.generation.repr ++ "\x7d"

def elementsJson : List TerminalFocusIdentity → String
  | [] => ""
  | [identity] => identityJson identity
  | identity :: rest => identityJson identity ++ "," ++ elementsJson rest

def profileHead : String := "\x7b\"version\":1,\"entries\":["
def profileTail : String := "]\x7d"

/-- `JSON.stringify` of the profile of these entries. -/
def profileJson (entries : List TerminalFocusIdentity) : String :=
  profileHead ++ elementsJson entries ++ profileTail

def profileBytes (entries : List TerminalFocusIdentity) : Nat :=
  (profileJson entries).utf8ByteSize

def isOver (entries : List TerminalFocusIdentity) : Bool :=
  entries.length > maxTerminalFocusEntries || profileBytes entries > maxTerminalFocusBytes

/-- `while (…) next.pop()`, for as many rounds as there are entries. -/
def popped : Nat → List TerminalFocusIdentity → List TerminalFocusIdentity
  | 0, next => next
  | rounds + 1, next => if isOver next then popped rounds next.dropLast else next

/-- Whether the entries changed, and the entries. -/
def recordFocus (entries : List TerminalFocusIdentity) (identity : TerminalFocusIdentity) :
    Bool × List TerminalFocusIdentity :=
  let key := terminalFocusIdentityKey identity
  let next := identity :: entries.filter fun item => terminalFocusIdentityKey item ≠ key
  let next := popped next.length next
  if next.map terminalFocusIdentityKey = entries.map terminalFocusIdentityKey then (false, entries)
  else (true, next)

/-- `new TerminalFocusHistory(entries)` -/
def restored (entries : List TerminalFocusIdentity) : List TerminalFocusIdentity :=
  entries.reverse.foldl (fun entries identity => (recordFocus entries identity).2) []

def prune (entries available : List TerminalFocusIdentity) : Bool × List TerminalFocusIdentity :=
  let keys := available.map terminalFocusIdentityKey
  let next := entries.filter fun identity => terminalFocusIdentityKey identity ∈ keys
  if next.length = entries.length then (false, entries) else (true, next)

/-- The ranked identities and the keys that are used. -/
abbrev Ranking := List TerminalFocusIdentity × List (List Char)

def Ranking.push (ranking : Ranking) (identity : TerminalFocusIdentity) : Ranking :=
  (ranking.1 ++ [identity], ranking.2 ++ [terminalFocusIdentityKey identity])

/-- A map of the available identities holds the last of each key. -/
def rankSaved (available : List TerminalFocusIdentity) (ranking : Ranking)
    (saved : TerminalFocusIdentity) : Ranking :=
  let key := terminalFocusIdentityKey saved
  match available.reverse.find? fun identity => terminalFocusIdentityKey identity = key with
  | none => ranking
  | some current => if key ∈ ranking.2 then ranking else ranking.push current

def rankRest (ranking : Ranking) (identity : TerminalFocusIdentity) : Ranking :=
  if terminalFocusIdentityKey identity ∈ ranking.2 then ranking else ranking.push identity

def rank (entries available : List TerminalFocusIdentity) : List TerminalFocusIdentity :=
  (available.foldl rankRest (entries.foldl (rankSaved available) ([], []))).1

inductive TerminalFocusHistoryDiagnostic
  | absent
  | corrupt
  | oversized
  | newerVersion
  deriving DecidableEq

/-- `parse` reads a text by the schema of a profile, `probe` the version alone. -/
def decodeTerminalFocusHistory (parse : String → Option (List TerminalFocusIdentity))
    (probe : String → Option Int) (raw : Option String) :
    List TerminalFocusIdentity × Option TerminalFocusHistoryDiagnostic :=
  match raw with
  | none => ([], some .absent)
  | some text =>
    if text.utf8ByteSize > maxTerminalFocusBytes then ([], some .oversized)
    else
      let diagnostic := match probe text with
        | some version => if version > 1 then .newerVersion else .corrupt
        | none => .corrupt
      match parse text with
      | some entries =>
        if entries.length ≤ maxTerminalFocusEntries then (restored entries, none)
        else ([], some diagnostic)
      | none => ([], some diagnostic)

/-! ## Runs -/

inductive Action
  | recordFocus (identity : TerminalFocusIdentity)
  | prune (available : List TerminalFocusIdentity)

/-- The entries, and all identities by their last focus without those pruned. -/
structure World where
  entries : List TerminalFocusIdentity := []
  recent : List TerminalFocusIdentity := []

def World.step (world : World) : Action → World
  | .recordFocus identity =>
    ⟨(FocusHistory.recordFocus world.entries identity).2,
      identity :: world.recent.filter (· ≠ identity)⟩
  | .prune available =>
    ⟨(FocusHistory.prune world.entries available).2, world.recent.filter (· ∈ available)⟩

def run (actions : List Action) : World :=
  actions.foldl World.step {}

/-! ## Keys -/

section Keys

variable {a b : TerminalFocusIdentity}

theorem separator_notMem_word {text : List Char} (h : isWord text = true) :
    unitSeparator ∉ text := by
  intro hmem
  have hall := List.all_eq_true.mp (Bool.and_eq_true_iff.mp h).2 unitSeparator hmem
  revert hall
  decide

theorem separator_notMem_resource {tag text : String} (h : isResource tag text = true)
    (htag : unitSeparator ∉ tag.toList) : unitSeparator ∉ text.toList := by
  simp only [isResource, Bool.and_eq_true, isPrefixOf_iff_prefix] at h
  obtain ⟨⟨-, rest, hrest⟩, hword⟩ := h
  rw [← hrest, mem_append]
  rintro (hmem | hmem)
  · exact htag hmem
  · rw [← hrest, ← String.length_toList, drop_left] at hword
    exact separator_notMem_word hword hmem

theorem key_inj : terminalFocusIdentityKey a = terminalFocusIdentityKey b ↔ a = b := by
  refine ⟨fun h => ?_, fun h => h ▸ rfl⟩
  have hparts : ∀ identity : TerminalFocusIdentity,
      (terminalFocusIdentityKey identity).splitOn unitSeparator =
        [identity.serverId.toList, identity.sessionId.toList, identity.tabId.toList,
          identity.terminalId.toList, Nat.toDigits 10 identity.generation] := by
    intro identity
    have hvalid := identity.valid
    simp only [Bool.and_eq_true] at hvalid
    obtain ⟨⟨⟨⟨⟨-, hserver⟩, hsession⟩, htab⟩, hterminal⟩, -⟩ := hvalid
    refine splitOn_intercalate _ ?_ (by simp)
    intro part hpart
    simp only [mem_cons, not_mem_nil, or_false] at hpart
    rcases hpart with rfl | rfl | rfl | rfl | rfl
    · exact separator_notMem_word hserver
    · exact separator_notMem_resource hsession (by decide)
    · exact separator_notMem_resource htab (by decide)
    · exact separator_notMem_resource hterminal (by decide)
    · intro hmem
      exact absurd (Nat.isDigit_of_mem_toDigits (by decide) (by decide) hmem) (by decide)
  have hsplit := congrArg (List.splitOn unitSeparator) h
  rw [hparts, hparts] at hsplit
  simp only [List.cons.injEq, String.toList_inj, and_true] at hsplit
  obtain ⟨hserver, hsession, htab, hterminal, hdigits⟩ := hsplit
  have hgeneration := congrArg (Nat.ofDigitChars 10 · 0) hdigits
  simp only [Nat.ofDigitChars_ten_toDigits] at hgeneration
  cases a
  cases b
  simp_all

theorem mem_keys {identities : List TerminalFocusIdentity} :
    terminalFocusIdentityKey a ∈ identities.map terminalFocusIdentityKey ↔ a ∈ identities := by
  simp [List.mem_map, key_inj]

end Keys

/-! ## What fits -/

section Fits

variable {entries next others : List TerminalFocusIdentity} {identity : TerminalFocusIdentity}

theorem elementsJson_cons (identity : TerminalFocusIdentity) (rest : List TerminalFocusIdentity) :
    (elementsJson (identity :: rest)).utf8ByteSize = (identityJson identity).utf8ByteSize +
      if rest = [] then 0 else 1 + (elementsJson rest).utf8ByteSize := by
  cases rest with
  | nil =>
    rw [if_pos rfl, Nat.add_zero]
    exact congrArg String.utf8ByteSize (rfl : elementsJson [identity] = identityJson identity)
  | cons other more =>
    rw [elementsJson, String.utf8ByteSize_append, String.utf8ByteSize_append, if_neg (by simp),
      Nat.add_assoc]
    · rfl
    · simp

theorem profileBytes_eq (entries : List TerminalFocusIdentity) : profileBytes entries =
    profileHead.utf8ByteSize + (elementsJson entries).utf8ByteSize + profileTail.utf8ByteSize := by
  rw [profileBytes, profileJson, String.utf8ByteSize_append, String.utf8ByteSize_append]

theorem profileBytes_mono (h : entries.Sublist others) :
    profileBytes entries ≤ profileBytes others := by
  have helements : (elementsJson entries).utf8ByteSize ≤ (elementsJson others).utf8ByteSize := by
    induction h with
    | slnil => exact le_rfl
    | @cons entries others identity hsub ih =>
      rw [elementsJson_cons]
      split
      · rename_i hempty
        rw [hempty, sublist_nil] at hsub
        rw [hsub]
        exact Nat.zero_le _
      · omega
    | @cons_cons entries others identity hsub ih =>
      rw [elementsJson_cons, elementsJson_cons]
      split
      · exact Nat.add_le_add_left (Nat.zero_le _) _
      rename_i hsome
      have hmore : others ≠ [] := fun hnone => hsome (sublist_nil.mp (hnone ▸ hsub))
      rw [if_neg hmore]
      exact Nat.add_le_add_left (Nat.add_le_add_left ih 1) _
  calc profileBytes entries
      = profileHead.utf8ByteSize + (elementsJson entries).utf8ByteSize +
          profileTail.utf8ByteSize := profileBytes_eq entries
    _ ≤ profileHead.utf8ByteSize + (elementsJson others).utf8ByteSize +
          profileTail.utf8ByteSize := Nat.add_le_add_right (Nat.add_le_add_left helements _) _
    _ = profileBytes others := (profileBytes_eq others).symm

theorem isOver_sublist (h : entries.Sublist others) (hothers : isOver others = false) :
    isOver entries = false := by
  simp only [isOver, Bool.or_eq_false_iff, decide_eq_false_iff_not, not_lt] at hothers ⊢
  exact ⟨h.length_le.trans hothers.1, (profileBytes_mono h).trans hothers.2⟩

theorem isOver_nil : isOver [] = false := by decide

/-- The longest part of `next` that is within the limits. -/
def LongestFit (entries next : List TerminalFocusIdentity) : Prop :=
  isOver entries = false ∧ ∃ kept ≤ next.length, entries = next.take kept ∧
    ∀ more, kept < more → more ≤ next.length → isOver (next.take more) = true

theorem longestFit_popped {rounds : Nat} (h : next.length ≤ rounds) :
    LongestFit (popped rounds next) next := by
  induction rounds generalizing next with
  | zero =>
    rw [eq_nil_of_length_eq_zero (Nat.le_zero.mp h)]
    exact ⟨isOver_nil, 0, Nat.zero_le _, rfl, fun more hlt hle => absurd hle (Nat.not_le.mpr hlt)⟩
  | succ rounds ih =>
    unfold popped
    split
    · rename_i hover
      have hpos : 0 < next.length := length_pos_of_ne_nil fun hnil => by
        rw [hnil, isOver_nil] at hover
        cases hover
      obtain ⟨hfits, kept, hkept, htake, hlonger⟩ := @ih next.dropLast (by
        rw [length_dropLast]
        omega)
      rw [length_dropLast] at hkept hlonger
      have hshort : ∀ count ≤ next.length - 1, next.dropLast.take count = next.take count := by
        intro count hcount
        rw [dropLast_eq_take, take_take, Nat.min_eq_left hcount]
      refine ⟨hfits, kept, by omega, htake.trans (hshort kept hkept), fun more hlt hle => ?_⟩
      rcases Nat.lt_or_ge (next.length - 1) more with hall | hpart
      · rwa [take_of_length_le (by omega)]
      · rw [← hshort more hpart]
        exact hlonger more hlt hpart
    · rename_i hfits
      exact ⟨by simpa using hfits, next.length, le_rfl, (take_length).symm,
        fun more hlt hle => absurd hle (Nat.not_le.mpr hlt)⟩

theorem popped_of_fits {rounds : Nat} (h : isOver next = false) : popped rounds next = next := by
  cases rounds with
  | zero => rfl
  | succ rounds => exact if_neg (by simp [h])

theorem key_injective : Function.Injective terminalFocusIdentityKey := fun _ _ h => key_inj.mp h

theorem recordFocus_entries (entries : List TerminalFocusIdentity)
    (identity : TerminalFocusIdentity) : (recordFocus entries identity).2 =
      popped ((entries.filter (· ≠ identity)).length + 1)
        (identity :: entries.filter (· ≠ identity)) := by
  simp only [recordFocus, ne_eq, key_inj, length_cons]
  split
  · rename_i hkeys
    exact (map_injective_iff.mpr key_injective hkeys).symm
  · rfl

theorem prune_entries (entries available : List TerminalFocusIdentity) :
    (prune entries available).2 = entries.filter (· ∈ available) := by
  simp only [prune, mem_keys]
  split
  · rename_i hlength
    exact (filter_eq_self.mpr (length_filter_eq_length_iff.mp hlength)).symm
  · rfl

/-- The entries are restored from a profile that holds them. -/
theorem restored_entries (hnodup : entries.Nodup) (h : isOver entries = false) :
    restored entries = entries := by
  rw [restored, foldl_reverse]
  induction entries with
  | nil => rfl
  | cons identity rest ih =>
    obtain ⟨hnew, hrest⟩ := nodup_cons.mp hnodup
    have hothers : rest.filter (· ≠ identity) = rest :=
      filter_eq_self.mpr fun other hother =>
        decide_eq_true fun hsame => hnew (hsame ▸ hother)
    rw [foldr_cons, ih hrest (isOver_sublist (sublist_cons_self _ _) h),
      recordFocus_entries, hothers, popped_of_fits h]

end Fits

/-! ## Ranks -/

section Ranks

variable {entries available : List TerminalFocusIdentity} {ranking : Ranking}

theorem rankSaved_eq (available : List TerminalFocusIdentity) (ranking : Ranking)
    (saved : TerminalFocusIdentity) : rankSaved available ranking saved =
      if saved ∈ available then rankRest ranking saved else ranking := by
  simp only [rankSaved, key_inj]
  split
  · rename_i hnone
    rw [if_neg]
    intro hmem
    exact absurd (find?_eq_none.mp hnone saved (mem_reverse.mpr hmem)) (by simp)
  · rename_i current hcurrent
    have hsame : current = saved := by simpa using find?_some hcurrent
    subst hsame
    rw [if_pos (mem_reverse.mp (mem_of_find?_eq_some hcurrent))]
    rfl

theorem foldl_rankRest (identities : List TerminalFocusIdentity)
    (hused : ranking.2 = ranking.1.map terminalFocusIdentityKey) (hnodup : ranking.1.Nodup) :
    (identities.foldl rankRest ranking).1 =
        ranking.1 ++ (identities.filter (· ∉ ranking.1)).eraseDups ∧
      (identities.foldl rankRest ranking).2 =
          (identities.foldl rankRest ranking).1.map terminalFocusIdentityKey ∧
        (identities.foldl rankRest ranking).1.Nodup := by
  induction identities generalizing ranking with
  | nil => exact ⟨by simp, hused, hnodup⟩
  | cons identity rest ih =>
    rw [foldl_cons, rankRest, hused]
    simp only [mem_keys]
    split
    · rename_i hmem
      rw [filter_cons_of_neg (by simpa using hmem)]
      exact ih hused hnodup
    rename_i hnew
    obtain ⟨heq, hkeys, hdistinct⟩ := @ih (ranking.push identity)
      (by rw [Ranking.push, map_append, hused]; rfl)
      (nodup_append.mpr ⟨hnodup, nodup_singleton _, by
        rintro other hother last hlast rfl
        exact hnew (mem_singleton.mp hlast ▸ hother)⟩)
    refine ⟨heq.trans ?_, hkeys, hdistinct⟩
    rw [filter_cons_of_pos (by simpa using hnew), eraseDups_cons, List.filter_filter]
    simp only [Ranking.push, append_assoc, singleton_append]
    congr 4
    funext other
    by_cases hsame : other = identity <;> simp [hsame]

theorem eraseDups_nodup {identities : List TerminalFocusIdentity} (h : identities.Nodup) :
    identities.eraseDups = identities := by
  induction identities with
  | nil => rfl
  | cons identity rest ih =>
    obtain ⟨hnew, hrest⟩ := nodup_cons.mp h
    rw [eraseDups_cons, filter_eq_self.mpr, ih hrest]
    intro other hother
    simpa using fun hsame : other = identity => hnew (hsame ▸ hother)

/-- The available entries in their order, then the others in theirs. -/
theorem rank_eq (hnodup : entries.Nodup) (available : List TerminalFocusIdentity) :
    rank entries available = entries.filter (· ∈ available) ++
        (available.filter (· ∉ entries)).eraseDups ∧
      (rank entries available).Nodup := by
  have hsaved : entries.foldl (rankSaved available) ([], []) =
      (entries.filter (· ∈ available)).foldl rankRest ([], []) := by
    rw [foldl_filter]
    congr 1
    funext ranking saved
    simp [rankSaved_eq]
  obtain ⟨hfirst, hkeys, hdistinct⟩ := @foldl_rankRest ([], []) (entries.filter (· ∈ available)) rfl
    nodup_nil
  have hfilter : (entries.filter (· ∈ available)).filter (· ∉ ([] : List TerminalFocusIdentity)) =
      entries.filter (· ∈ available) := filter_eq_self.mpr (by simp)
  rw [nil_append, hfilter, eraseDups_nodup (hnodup.filter _)] at hfirst
  obtain ⟨hall, -, hranked⟩ := foldl_rankRest available hkeys hdistinct
  unfold rank
  rw [hsaved]
  refine ⟨hall.trans ?_, hranked⟩
  rw [hfirst]
  congr 2
  apply filter_congr
  intro identity hidentity
  simp [hidentity]

end Ranks

/-! ## Every sequence of calls -/

section Runs

structure Kept (world : World) : Prop where
  nodup : world.entries.Nodup
  fits : isOver world.entries = false
  recent : world.entries <+: world.recent

theorem Kept.step {world : World} (h : Kept world) (action : Action) : Kept (world.step action) := by
  cases action with
  | recordFocus identity =>
    have hentries := recordFocus_entries world.entries identity
    obtain ⟨hfits, kept, -, htake, -⟩ := @longestFit_popped
      (identity :: world.entries.filter (· ≠ identity)) _ le_rfl
    rw [length_cons, ← hentries] at hfits htake
    refine ⟨?_, hfits, ?_⟩
    · change (recordFocus world.entries identity).2.Nodup
      rw [htake]
      refine (nodup_cons.mpr ⟨?_, h.nodup.filter _⟩).sublist (take_sublist _ _)
      simp
    · change (recordFocus world.entries identity).2 <+: _
      rw [htake]
      exact ( take_prefix _ _).trans (cons_prefix_cons.mpr ⟨rfl, h.recent.filter _⟩)
  | prune available =>
    have hentries := prune_entries world.entries available
    refine ⟨?_, ?_, ?_⟩
    · change (prune world.entries available).2.Nodup
      rw [hentries]
      exact h.nodup.filter _
    · change isOver (prune world.entries available).2 = false
      rw [hentries]
      exact isOver_sublist filter_sublist h.fits
    · change (prune world.entries available).2 <+: _
      rw [hentries]
      exact h.recent.filter _

theorem kept_run (actions : List Action) : Kept (run actions) := by
  induction actions using List.reverseRecOn with
  | nil => exact ⟨nodup_nil, isOver_nil, nil_prefix⟩
  | append_singleton actions action ih =>
    rw [run, foldl_concat]
    exact ih.step action

def sampleIdentity : TerminalFocusIdentity :=
  ⟨"alpha", "ses-1", "tab-1", "term-1", 3, by decide⟩

end Runs

end Yaade.Mux.FocusHistory
