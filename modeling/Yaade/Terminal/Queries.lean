import Yaade.Library.Occurrences
import Yaade.Library.Utf8
import Yaade.Store.State

/-!
Requests that a program sends to its terminal, and the directories that its shell
reports: the sequences and the scanners that find them in the output, chunk by chunk.
-/

namespace Yaade.Terminal

open Yaade.Library List Option

inductive TerminalQuery where
  | primaryDeviceAttributes
  | operatingStatus
  | foregroundColor
  | backgroundColor
  | cursorColor
  | themeUpdatesMode
  | themePreference
  deriving DecidableEq

inductive TerminalRequest where
  | query (query : TerminalQuery)
  | setThemeUpdates (enabled : Bool)
  deriving DecidableEq

def esc : UInt8 := 0x1b

def escape (text : String) : List UInt8 := esc :: text.toList.map fun c => UInt8.ofNat c.toNat

def terminalRequestSequences : List (List UInt8 × TerminalRequest) :=
  [(escape "[?2031$p", .query .themeUpdatesMode),
    (escape "[?996n", .query .themePreference),
    (escape "[?2031h", .setThemeUpdates true),
    (escape "[?2031l", .setThemeUpdates false),
    (escape "[0c", .query .primaryDeviceAttributes),
    (escape "[c", .query .primaryDeviceAttributes),
    (escape "[5n", .query .operatingStatus),
    (escape "]10;?\x07", .query .foregroundColor),
    (escape "]10;?\x1b\\", .query .foregroundColor),
    (escape "]11;?\x07", .query .backgroundColor),
    (escape "]11;?\x1b\\", .query .backgroundColor),
    (escape "]12;?\x07", .query .cursorColor),
    (escape "]12;?\x1b\\", .query .cursorColor)]

/-- One byte of the output: the request that it ends, and the bytes that may
begin another one. -/
def feedByte (leftover : List UInt8) (byte : UInt8) : Option TerminalRequest × List UInt8 :=
  if leftover = [] then (none, if byte = esc then [byte] else [])
  else
    let leftover := leftover ++ [byte]
    match terminalRequestSequences.find? fun entry => entry.1 = leftover with
    | some (_, request) => (some request, [])
    | none =>
      if terminalRequestSequences.any fun entry => leftover.isPrefixOf entry.1 then
        (none, leftover)
      else (none, if byte = esc then [byte] else [])

def feedTerminalRequests (leftover : List UInt8) :
    List UInt8 → List TerminalRequest × List UInt8
  | [] => ([], leftover)
  | byte :: chunk =>
    let (request, leftover) := feedByte leftover byte
    let (requests, leftover) := feedTerminalRequests leftover chunk
    (request.toList ++ requests, leftover)

def feedChunks (leftover : List UInt8) : List (List UInt8) → List TerminalRequest × List UInt8
  | [] => ([], leftover)
  | chunk :: rest =>
    let (requests, leftover) := feedTerminalRequests leftover chunk
    let (more, leftover) := feedChunks leftover rest
    (requests ++ more, leftover)

def terminalRequests (text : List UInt8) : List TerminalRequest :=
  occurrences terminalRequestSequences text

/-! ## The sequences -/

section Sequences

theorem sequence_length : ∀ entry ∈ terminalRequestSequences, entry.1.length ≤ 9 := by decide

theorem sequence_esc : ∀ entry ∈ terminalRequestSequences, entry.1.head? = some esc := by decide

theorem terminalRequestSequences_disjoint : Disjoint terminalRequestSequences where
  nonempty := by decide
  apart := by
    have hall : ∀ pattern ∈ terminalRequestSequences, ∀ other ∈ terminalRequestSequences,
        ∀ n < 9, 0 < n → n < pattern.1.length →
          ¬ pattern.1.drop n <+: other.1 ∧ ¬ other.1 <+: pattern.1.drop n := by
      decide +kernel
    intro pattern hpattern other hother n hpositive hlength
    have hshort := sequence_length pattern hpattern
    exact hall pattern hpattern other hother n (by omega) hpositive hlength
  determined := by decide +kernel

def colorQueries : List (List UInt8) := [escape "]10;?", escape "]11;?", escape "]12;?"]

theorem esc_inside {leftover : List UInt8} {entry : List UInt8 × TerminalRequest}
    (hentry : entry ∈ terminalRequestSequences) (h : leftover ++ [esc] <+: entry.1) :
    leftover = [] ∨ leftover ∈ colorQueries := by
  have hall : ∀ entry ∈ terminalRequestSequences, ∀ n < 9, entry.1.take n ++ [esc] <+: entry.1 →
      entry.1.take n = [] ∨ entry.1.take n ∈ colorQueries := by
    decide +kernel
  have hshort := sequence_length entry hentry
  have hlength := h.length_le
  rw [length_append, length_singleton] at hlength
  have htake : entry.1.take leftover.length = leftover :=
    (prefix_iff_eq_take.mp ((prefix_append leftover [esc]).trans h)).symm
  have hn := hall entry hentry leftover.length (by omega)
  rw [htake] at hn
  exact hn h

end Sequences

/-! ## The scanner -/

section Scanner

variable {leftover text chunk rest : List UInt8} {byte : UInt8}
  {entry : List UInt8 × TerminalRequest}

theorem feedTerminalRequests_cons (leftover : List UInt8) (byte : UInt8) (chunk : List UInt8) :
    feedTerminalRequests leftover (byte :: chunk) =
      ((feedByte leftover byte).1.toList ++
          (feedTerminalRequests (feedByte leftover byte).2 chunk).1,
        (feedTerminalRequests (feedByte leftover byte).2 chunk).2) := rfl

theorem feedTerminalRequests_append (leftover text rest : List UInt8) :
    feedTerminalRequests leftover (text ++ rest) =
      ((feedTerminalRequests leftover text).1 ++
          (feedTerminalRequests (feedTerminalRequests leftover text).2 rest).1,
        (feedTerminalRequests (feedTerminalRequests leftover text).2 rest).2) := by
  induction text generalizing leftover with
  | nil => rfl
  | cons byte text ih =>
    rw [cons_append, feedTerminalRequests_cons, ih, feedTerminalRequests_cons, append_assoc]

theorem feedChunks_flatten (leftover : List UInt8) (chunks : List (List UInt8)) :
    feedChunks leftover chunks = feedTerminalRequests leftover chunks.flatten := by
  induction chunks generalizing leftover with
  | nil => rfl
  | cons chunk rest ih =>
    rw [flatten_cons, feedTerminalRequests_append, ← ih]
    rfl

theorem feedByte_suffix (leftover : List UInt8) (byte : UInt8) :
    (feedByte leftover byte).2 <:+ leftover ++ [byte] := by
  have hrestart : (if byte = esc then [byte] else []) <:+ leftover ++ [byte] := by
    split
    · exact suffix_append leftover [byte]
    · exact nil_suffix
  unfold feedByte
  split
  · exact hrestart
  simp only
  split
  · exact nil_suffix
  split
  · exact suffix_refl _
  · exact hrestart

theorem leftover_suffix (leftover text : List UInt8) :
    (feedTerminalRequests leftover text).2 <:+ leftover ++ text := by
  induction text generalizing leftover with
  | nil =>
    rw [append_nil]
    exact suffix_refl leftover
  | cons byte text ih =>
    rw [feedTerminalRequests_cons, append_cons]
    obtain ⟨dropped, hdropped⟩ := feedByte_suffix leftover byte
    refine (ih (feedByte leftover byte).2).trans ⟨dropped, ?_⟩
    rw [← append_assoc, hdropped]

theorem feedByte_esc (h : leftover ∉ colorQueries) : feedByte leftover esc = (none, [esc]) := by
  unfold feedByte
  split
  · rfl
  rename_i hbegun
  have hnone : ∀ entry ∈ terminalRequestSequences, ¬ leftover ++ [esc] <+: entry.1 := by
    intro entry hentry hprefix
    rcases esc_inside hentry hprefix with hnil | hquery
    · exact hbegun hnil
    · exact h hquery
  have hfind : (terminalRequestSequences.find? fun entry => entry.1 = leftover ++ [esc]) =
      none := by
    apply find?_eq_none.mpr
    intro entry hentry hsame
    exact hnone entry hentry (of_decide_eq_true hsame ▸ prefix_refl _)
  have hany : (terminalRequestSequences.any fun entry =>
      (leftover ++ [esc]).isPrefixOf entry.1) = false := by
    apply any_eq_false.mpr
    intro entry hentry hprefix
    exact hnone entry hentry ( isPrefixOf_iff_prefix.mp hprefix)
  simp only [hfind, hany]
  rfl

theorem feed_esc (h : leftover ∉ colorQueries) (text : List UInt8) :
    feedTerminalRequests leftover (esc :: text) = feedTerminalRequests [] (esc :: text) := by
  rw [feedTerminalRequests_cons, feedTerminalRequests_cons, feedByte_esc h,
    feedByte_esc (by decide)]

theorem feed_sequence (hentry : entry ∈ terminalRequestSequences) (h : leftover ∉ colorQueries) :
    feedTerminalRequests leftover entry.1 = ([entry.2], []) := by
  have hall : ∀ entry ∈ terminalRequestSequences,
      feedTerminalRequests [] entry.1 = ([entry.2], []) := by
    decide +kernel
  obtain ⟨tail, htail⟩ := head?_eq_some_iff.mp (sequence_esc entry hentry)
  rw [← hall entry hentry, htail, feed_esc h]

theorem feed_sequence_lost (hentry : entry ∈ terminalRequestSequences)
    (h : leftover ∈ colorQueries) : feedTerminalRequests leftover entry.1 = ([], []) := by
  have hall : ∀ leftover ∈ colorQueries, ∀ entry ∈ terminalRequestSequences,
      feedTerminalRequests leftover entry.1 = ([], []) := by
    decide +kernel
  exact hall leftover h entry hentry

def Fresh (leftover rest : List UInt8) : Prop :=
  leftover ≠ [] → patternAt terminalRequestSequences (leftover ++ rest) = none

theorem feedByte_fresh (hfresh : Fresh leftover (byte :: rest))
    (hnone : patternAt terminalRequestSequences (byte :: rest) = none) :
    (feedByte leftover byte).1 = none ∧ Fresh (feedByte leftover byte).2 rest := by
  have hrestart : Fresh (if byte = esc then [byte] else []) rest := by
    split
    · exact fun _ => hnone
    · exact fun h => absurd rfl h
  unfold feedByte
  split
  · exact ⟨rfl, hrestart⟩
  rename_i hbegun
  have hno := patternAt_none (hfresh hbegun)
  simp only
  split
  · rename_i sequence request hfind
    have hsame := find?_some hfind
    refine absurd ?_ (hno _ (mem_of_find?_eq_some hfind))
    rw [of_decide_eq_true hsame, append_cons leftover byte rest]
    exact prefix_append _ _
  · split
    · refine ⟨rfl, fun _ => ?_⟩
      rw [← append_cons]
      exact hfresh hbegun
    · exact ⟨rfl, hrestart⟩

def Heard (leftover text : List UInt8) : Prop :=
  ∀ before entry after, entry ∈ terminalRequestSequences → text = before ++ entry.1 ++ after →
    (feedTerminalRequests leftover before).2 ∉ colorQueries

theorem heard_skip (hnone : patternAt terminalRequestSequences (byte :: rest) = none) :
    Heard leftover (byte :: rest) ↔ Heard (feedByte leftover byte).2 rest := by
  constructor
  · intro h before entry after hentry hrest
    have hbef := h (byte :: before) entry after hentry (by rw [hrest]; rfl)
    rwa [feedTerminalRequests_cons] at hbef
  · intro h before entry after hentry htext
    cases before with
    | nil =>
      rw [nil_append] at htext
      exact absurd (htext ▸ prefix_append entry.1 after) (patternAt_none hnone entry hentry)
    | cons first before =>
      cases htext
      rw [feedTerminalRequests_cons]
      exact h before entry after hentry rfl

theorem heard_sequence (hentry : entry ∈ terminalRequestSequences) (h : leftover ∉ colorQueries) :
    Heard leftover (entry.1 ++ rest) ↔ Heard [] rest := by
  have hfound := feed_sequence hentry h
  constructor
  · intro hheard before other after hother hrest
    have hbef := hheard (entry.1 ++ before) other after hother (by
      rw [hrest]
      simp only [append_assoc])
    rwa [feedTerminalRequests_append, hfound] at hbef
  · intro hheard before other after hother htext
    rcases terminalRequestSequences_disjoint.behind hentry hother htext with
      ⟨rfl, -, -⟩ | ⟨between, rfl, hrest⟩
    · exact h
    · rw [feedTerminalRequests_append, hfound]
      exact hheard between other after hother hrest

/-- The scanner finds no more than there is, and all of it exactly if no
sequence begins right behind a colour query. -/
theorem feed_occurrences (leftover text : List UInt8) (hfresh : Fresh leftover text) :
    (feedTerminalRequests leftover text).1.length ≤ (terminalRequests text).length ∧
      ((feedTerminalRequests leftover text).1 = terminalRequests text ↔ Heard leftover text) := by
  induction hlength : text.length using Nat.strong_induction_on generalizing leftover text with
  | h length ih =>
    cases hat : patternAt terminalRequestSequences text with
    | none =>
      cases text with
      | nil =>
        refine ⟨Nat.le_refl 0, fun _ before entry after hentry htext => ?_, fun _ => rfl⟩
        have hnil := (append_eq_nil_iff.mp htext.symm).1
        exact absurd (append_eq_nil_iff.mp hnil).2
          (terminalRequestSequences_disjoint.nonempty entry hentry)
      | cons byte rest =>
        obtain ⟨hquiet, hnext⟩ := feedByte_fresh hfresh hat
        have hrest := ih rest.length (by rw [← hlength]; simp) _ rest hnext rfl
        have hskip : terminalRequests (byte :: rest) = terminalRequests rest := occurrences_none hat
        rw [hskip, heard_skip hat, feedTerminalRequests_cons, hquiet]
        exact hrest
    | some entry =>
      obtain ⟨hentry, after, htext⟩ := patternAt_some hat
      subst htext
      have hnonem := terminalRequestSequences_disjoint.nonempty entry hentry
      have htaken : terminalRequests (entry.1 ++ after) = entry.2 :: terminalRequests after :=
        occurrences_some hat hnonem
      have hshorter : after.length < length := by
        have hpositive := length_pos_iff.mpr hnonem
        rw [← hlength, length_append]
        omega
      obtain ⟨hfewer, hexact⟩ := ih after.length hshorter [] after (fun h => absurd rfl h) rfl
      rw [htaken, feedTerminalRequests_append]
      by_cases hquery : leftover ∈ colorQueries
      · rw [feed_sequence_lost hentry hquery, nil_append]
        refine ⟨Nat.le_succ_of_le hfewer, ?_, ?_⟩
        · intro hsame
          rw [hsame] at hfewer
          exact absurd hfewer (Nat.not_succ_le_self _)
        · intro hheard
          exact absurd hquery (hheard [] entry after hentry rfl)
      · rw [feed_sequence hentry hquery, heard_sequence hentry hquery, ← hexact]
        refine ⟨Nat.succ_le_succ hfewer, ?_⟩
        rw [singleton_append, cons_inj_right]

end Scanner

/-! ## Colour queries that break off -/

section Broken

variable {leftover before stream : List UInt8} {run : List (List UInt8)}

theorem feed_colorQuery {query : List UInt8} (hquery : query ∈ colorQueries) :
    (feedTerminalRequests leftover query).2 ∈ colorQueries ↔ leftover ∉ colorQueries := by
  have hfound : ∀ query ∈ colorQueries, feedTerminalRequests [] query = ([], query) := by
    decide +kernel
  have hlost : ∀ leftover ∈ colorQueries, ∀ query ∈ colorQueries,
      feedTerminalRequests leftover query = ([], []) := by
    decide +kernel
  have hesc : ∀ query ∈ colorQueries, query.head? = some esc := by decide
  by_cases h : leftover ∈ colorQueries
  · rw [hlost leftover h query hquery]
    exact ⟨fun hnil => absurd hnil (by decide), fun hnot => absurd h hnot⟩
  obtain ⟨tail, htail⟩ := head?_eq_some_iff.mp (hesc query hquery)
  have hsame : feedTerminalRequests leftover query = ([], query) := by
    rw [← hfound query hquery, htail, feed_esc h]
  rw [hsame]
  exact ⟨fun _ => h, fun _ => hquery⟩

theorem feed_run (hrun : ∀ query ∈ run, query ∈ colorQueries) :
    (feedTerminalRequests leftover run.flatten).2 ∈ colorQueries ↔
      (leftover ∈ colorQueries ↔ Even run.length) := by
  induction run generalizing leftover with
  | nil => simp [feedTerminalRequests]
  | cons query run ih =>
    rw [flatten_cons, feedTerminalRequests_append]
    simp only
    rw [ih fun later hmem => hrun later (mem_cons_of_mem query hmem),
      feed_colorQuery (hrun query mem_cons_self), length_cons, Nat.even_add_one]
    tauto

theorem leftover_run (hrun : ∀ query ∈ run, query ∈ colorQueries)
    (hbef : ∀ query ∈ colorQueries, ¬ query <:+ before) :
    (feedTerminalRequests [] (before ++ run.flatten)).2 ∈ colorQueries ↔ ¬ Even run.length := by
  have hclear : (feedTerminalRequests [] before).2 ∉ colorQueries :=
    fun hmem => hbef _ hmem (leftover_suffix [] before)
  rw [feedTerminalRequests_append]
  simp only
  rw [feed_run hrun]
  tauto

theorem exists_run (text : List UInt8) :
    ∃ before run, text = before ++ List.flatten run ∧ (∀ query ∈ run, query ∈ colorQueries) ∧
      ∀ query ∈ colorQueries, ¬ query <:+ before := by
  induction hlength : text.length using Nat.strong_induction_on generalizing text with
  | h length ih =>
    by_cases hends : ∃ query ∈ colorQueries, query <:+ text
    · obtain ⟨query, hquery, front, rfl⟩ := hends
      have hnonem : ∀ query ∈ colorQueries, 0 < query.length := by decide
      have hpositive := hnonem query hquery
      rw [length_append] at hlength
      obtain ⟨before, run, hfront, hrun, hbef⟩ := ih front.length (by omega) front rfl
      refine ⟨before, run ++ [query], ?_, ?_, hbef⟩
      · rw [hfront, flatten_append, flatten_singleton, append_assoc]
      · intro member hmem
        rcases mem_append.mp hmem with hmem | hmem
        · exact hrun member hmem
        · exact mem_singleton.mp hmem ▸ hquery
    · push Not at hends
      refine ⟨text, [], by rw [flatten_nil, append_nil], ?_, hends⟩
      exact forall_mem_nil _

/-- No request comes right behind an odd run of colour queries that break off. -/
def Undisturbed (stream : List UInt8) : Prop :=
  ∀ before run entry after, (∀ query ∈ run, query ∈ colorQueries) →
    (∀ query ∈ colorQueries, ¬ query <:+ before) → entry ∈ terminalRequestSequences →
    stream = before ++ List.flatten run ++ entry.1 ++ after → Even run.length

theorem heard_iff : Heard [] stream ↔ Undisturbed stream := by
  constructor
  · intro h before run entry after hrun hbef hentry hstream
    have hclear := h (before ++ run.flatten) entry after hentry hstream
    rwa [leftover_run hrun hbef, not_not] at hclear
  · intro h before entry after hentry hstream
    obtain ⟨front, run, rfl, hrun, hfront⟩ := exists_run before
    rw [leftover_run hrun hfront, not_not]
    exact h front run entry after hrun hfront hentry hstream

/-- The scanner finds all requests of the stream, however it is cut into
chunks, exactly if none comes right behind an odd run of colour queries that
break off. -/
theorem terminal_requests_complete (stream : List UInt8) : (∀ chunks, List.flatten chunks = stream →
      (feedChunks [] chunks).1 = terminalRequests stream) ↔ Undisturbed stream := by
  obtain ⟨-, hexact⟩ := feed_occurrences [] stream fun h => absurd rfl h
  rw [← heard_iff, ← hexact]
  constructor
  · intro h
    have hwhole := h [stream] (by rw [flatten_singleton])
    rwa [feedChunks_flatten, flatten_singleton] at hwhole
  · intro h chunks hchunks
    rw [feedChunks_flatten, hchunks]
    exact h

/-- A colour query that breaks off at the next request, which is not answered. -/
theorem terminal_request_lost : (feedChunks [] [escape "]10;?" ++ escape "[c"]).1 = [] ∧
      terminalRequests (escape "]10;?" ++ escape "[c") = [.query .primaryDeviceAttributes] := by
  decide

end Broken

/-! ## Working directories -/

def osc7Prefix : List UInt8 := escape "]7;"

def maxOsc7PayloadBytes : Nat := 4096

def bell : UInt8 := 0x07

structure Osc7Scanner where
  prefixLen : Nat := 0
  payload : List UInt8 := []
  inPayload : Bool := false
  sawEscape : Bool := false
  deriving DecidableEq

def hexDigit (byte : UInt8) : Option UInt8 :=
  if 0x30 ≤ byte ∧ byte ≤ 0x39 then some (byte - 0x30)
  else if 0x41 ≤ byte ∧ byte ≤ 0x46 then some (byte - 0x37)
  else if 0x61 ≤ byte ∧ byte ≤ 0x66 then some (byte - 0x57)
  else none

def percentDecode : List UInt8 → List UInt8
  | 0x25 :: high :: low :: rest =>
    match hexDigit high, hexDigit low with
    | some high, some low => (high * 0x10 + low) :: percentDecode rest
    | _, _ => 0x25 :: percentDecode (high :: low :: rest)
  | byte :: rest => byte :: percentDecode rest
  | [] => []

def osc7Path (value : String) : Option String :=
  ("file://".toList.isPrefixOf? (Store.trim value).toList).bind fun withoutScheme =>
    -- a host name stands before the first slash
    let pathname := withoutScheme.dropWhile (· ≠ '/')
    if pathname = [] then none
    else (Utf8.decodeFatal? (percentDecode (Utf8.encode (String.ofList pathname)))).filter (· ≠ "")

namespace Osc7Scanner

def finish (scanner : Osc7Scanner) : Option String :=
  (Utf8.decodeFatal? scanner.payload).bind osc7Path

/-- One byte of the output: the path of the report that it ends. -/
def feedByte (scanner : Osc7Scanner) (byte : UInt8) : Option String × Osc7Scanner :=
  if scanner.inPayload = false then
    if osc7Prefix[scanner.prefixLen]? = some byte then
      if scanner.prefixLen + 1 = osc7Prefix.length then
        (none, { scanner with prefixLen := 0, inPayload := true, payload := [] })
      else (none, { scanner with prefixLen := scanner.prefixLen + 1 })
    else (none, { scanner with prefixLen := if byte = esc then 1 else 0 })
  else if scanner.sawEscape = true ∧ byte = 0x5c then (scanner.finish, {})
  else
    let scanner := if scanner.sawEscape = false then scanner
      else if scanner.payload.length < maxOsc7PayloadBytes then
        { scanner with sawEscape := false, payload := scanner.payload ++ [esc] }
      else { scanner with sawEscape := false }
    if byte = bell then (scanner.finish, {})
    else if byte = esc then (none, { scanner with sawEscape := true })
    else if scanner.payload.length < maxOsc7PayloadBytes then
      (none, { scanner with payload := scanner.payload ++ [byte] })
    else (none, {})

def feed (scanner : Osc7Scanner) (chunk : List UInt8) : Option String × Osc7Scanner :=
  chunk.foldl (fun (last, scanner) byte =>
    ((scanner.feedByte byte).1.or last, (scanner.feedByte byte).2)) (none, scanner)

end Osc7Scanner

/-- The directory last reported, after another chunk: `resolve` is what the file
system makes of a path. -/
def followCwd (resolve : String → String) (state : Osc7Scanner × Option String)
    (chunk : List UInt8) : Osc7Scanner × Option String :=
  ((state.1.feed chunk).2, ((state.1.feed chunk).1.map resolve).or state.2)

/-- A report of a directory, and the output behind it. -/
structure Osc7Report where
  payload : List UInt8
  bell : Bool
  after : List UInt8

namespace Osc7Report

def ending (report : Osc7Report) : List UInt8 :=
  if report.bell then [Terminal.bell] else escape "\\"

def bytes (report : Osc7Report) : List UInt8 :=
  osc7Prefix ++ report.payload ++ report.ending ++ report.after

def path (report : Osc7Report) : Option String :=
  if report.payload.length ≤ maxOsc7PayloadBytes then
    (Utf8.decodeFatal? report.payload).bind osc7Path
  else none

structure Plain (report : Osc7Report) : Prop where
  payload : ∀ byte ∈ report.payload, byte ≠ Terminal.bell ∧ byte ≠ esc
  after : ¬ osc7Prefix <:+: report.after

end Osc7Report

section Directories

variable (resolve : String → String)

def followByte (state : Osc7Scanner × Option String) (byte : UInt8) : Osc7Scanner × Option String :=
  ((state.1.feedByte byte).2, ((state.1.feedByte byte).1.map resolve).or state.2)

theorem follow_chunk (state : Osc7Scanner × Option String) (chunk : List UInt8) :
    followCwd resolve state chunk = chunk.foldl (followByte resolve) state := by
  have hall : ∀ last scanner,
      (fun fed : Option String × Osc7Scanner => (fed.2, (fed.1.map resolve).or state.2))
        (chunk.foldl (fun (last, scanner) byte =>
          ((scanner.feedByte byte).1.or last, (scanner.feedByte byte).2)) (last, scanner)) =
      chunk.foldl (followByte resolve) (scanner, (last.map resolve).or state.2) := by
    induction chunk with
    | nil => intro last scanner; rfl
    | cons byte rest ih =>
      intro last scanner
      rw [foldl_cons, ih, foldl_cons, followByte, Option.map_or, Option.or_assoc]
  exact hall none state.1

variable {resolve} {cwd : Option String}

/-- Output without a whole prefix keeps the scanner outside of a report. -/
theorem follow_text (text : List UInt8) {read : List UInt8} {count : Nat} (hcount : count < 4)
    (hread : osc7Prefix.take count <:+ read) (hquiet : ¬ osc7Prefix <:+: read ++ text) :
    ∃ count' < 4, text.foldl (followByte resolve) ({ prefixLen := count }, cwd) =
      ({ prefixLen := count' }, cwd) := by
  induction text generalizing read count with
  | nil => exact ⟨count, hcount, rfl⟩
  | cons byte rest ih =>
    have hquiet' : ¬ osc7Prefix <:+: read ++ [byte] ++ rest := by simpa using hquiet
    simp only [foldl_cons, followByte, Osc7Scanner.feedByte, if_true]
    split
    · rename_i hmatch
      obtain ⟨front, rfl⟩ := hread
      have hmore : osc7Prefix.take (count + 1) <:+ front ++ osc7Prefix.take count ++ [byte] :=
        ⟨front, by rw [take_add_one, hmatch]; simp⟩
      have hnext : count + 1 < 4 := by
        refine lt_of_le_of_ne hcount fun hlast => hquiet' ?_
        rw [hlast] at hmore
        exact hmore.isInfix.trans (prefix_append _ rest).isInfix
      rw [if_neg (show count + 1 ≠ osc7Prefix.length from ne_of_lt hnext)]
      exact ih hnext hmore hquiet'
    · by_cases hesc : byte = esc
      · subst hesc
        rw [if_pos rfl]
        exact @ih (read ++ [esc]) 1 (by decide) ⟨read, rfl⟩ hquiet'
      · rw [if_neg hesc]
        exact ih (by decide) ⟨read ++ [byte], append_nil _⟩ hquiet'

theorem follow_prefix {count : Nat} (hcount : count < 4) :
    osc7Prefix.foldl (followByte resolve) ({ prefixLen := count }, cwd) =
      ({ inPayload := true }, cwd) := by
  interval_cases count <;> rfl

theorem follow_plain (text : List UInt8) (hplain : ∀ byte ∈ text, byte ≠ esc) :
    text.foldl (followByte resolve) ({}, cwd) = ({}, cwd) := by
  induction text with
  | nil => rfl
  | cons byte rest ih =>
    obtain ⟨hbyte, hrest⟩ := forall_mem_cons.mp hplain
    have hstep : followByte resolve ({}, cwd) byte = ({}, cwd) := by
      simp [followByte, Osc7Scanner.feedByte, osc7Prefix, escape, hbyte, Ne.symm hbyte]
    rw [foldl_cons, hstep, ih hrest]

/-- A payload is kept whole, or the scanner leaves it at the first byte too many. -/
theorem follow_payload (text : List UInt8) (hplain : ∀ byte ∈ text, byte ≠ bell ∧ byte ≠ esc)
    {payload : List UInt8} (hfits : payload.length ≤ maxOsc7PayloadBytes) :
    text.foldl (followByte resolve) ({ payload, inPayload := true }, cwd) =
      (if (payload ++ text).length ≤ maxOsc7PayloadBytes then
        { payload := payload ++ text, inPayload := true } else {}, cwd) := by
  induction text generalizing payload with
  | nil => rw [append_nil, if_pos hfits]; rfl
  | cons byte rest ih =>
    obtain ⟨⟨hbell, hesc⟩, hrest⟩ := forall_mem_cons.mp hplain
    simp only [foldl_cons, followByte, Osc7Scanner.feedByte, Bool.true_eq_false, if_false,
      Bool.false_eq_true, false_and, if_true, hbell, hesc]
    split
    · rename_i hroom
      refine (ih hrest (by simpa using hroom)).trans ?_
      rw [append_assoc]
      rfl
    · rename_i hfull
      refine (follow_plain rest fun byte hbyte => (hrest byte hbyte).2).trans ?_
      rw [length_append, length_cons, if_neg (by omega)]
      rfl

theorem follow_report {report : Osc7Report} (hplain : report.Plain) {count : Nat}
    (hcount : count < 4) : ∃ count' < 4,
      report.bytes.foldl (followByte resolve) ({ prefixLen := count }, cwd) =
        ({ prefixLen := count' }, (report.path.map resolve).or cwd) := by
  have hending : report.ending.foldl (followByte resolve)
      (if report.payload.length ≤ maxOsc7PayloadBytes then
        { payload := report.payload, inPayload := true } else {}, cwd) =
      ({}, (report.path.map resolve).or cwd) := by
    unfold Osc7Report.ending Osc7Report.path
    split <;> split <;> rfl
  have hpayload := @follow_payload resolve cwd report.payload hplain.payload [] (Nat.zero_le _)
  rw [Osc7Report.bytes, foldl_append, foldl_append, foldl_append, follow_prefix hcount, hpayload]
  refine (congrArg (report.after.foldl (followByte resolve)) hending) ▸ ?_
  exact @follow_text resolve _ report.after [] 0 (by decide) ⟨[], rfl⟩ hplain.after

def homeReport : Osc7Report := ⟨Utf8.encode "file://host/my%20home", false, escape "[0m"⟩

end Directories

end Yaade.Terminal
