import Yaade.History.Crash
import Yaade.History.Slots

/-!
Reading an archive page after page.
-/

namespace Yaade.History

open Yaade.Library List Option

/-! ## Cutting a page -/

section Cut

variable {limit bytes : Nat} {chosen : Bool} {records first more : List HistoryRecord}

theorem payloadBytes_cons (record : HistoryRecord) (records : List HistoryRecord) :
    payloadBytes (record :: records) = record.data.length + payloadBytes records := rfl

theorem cutPage_split (limit : Nat) (chosen : Bool) (bytes : Nat) (records : List HistoryRecord) :
    ∃ rest, records = (cutPage limit chosen bytes records).page ++ rest ∧
      ((cutPage limit chosen bytes records).cut = false ↔ rest = []) ∧
      (cutPage limit chosen bytes records).bytes =
        bytes + payloadBytes (cutPage limit chosen bytes records).page := by
  induction records generalizing chosen bytes with
  | nil => exact ⟨[], rfl, by simp [cutPage], rfl⟩
  | cons record rest ih =>
    unfold cutPage
    dsimp only
    split
    · exact ⟨record :: rest, rfl, by simp, rfl⟩
    obtain ⟨left, hleft, hcut, hbytes⟩ := ih true (bytes + record.data.length)
    refine ⟨left, congrArg (record :: ·) hleft, hcut, ?_⟩
    rw [payloadBytes_cons, ← Nat.add_assoc]
    exact hbytes

theorem cutPage_nonempty (hrecords : records ≠ []) : (cutPage limit false bytes records).page ≠ [] := by
  obtain ⟨record, rest, rfl⟩ := exists_cons_of_ne_nil hrecords
  simp [cutPage]

theorem cutPage_fits_rest (records : List HistoryRecord) :
    (cutPage limit true bytes records).page = [] ∨
      (cutPage limit true bytes records).bytes ≤ limit := by
  induction records generalizing bytes with
  | nil => exact .inl rfl
  | cons record rest ih =>
    unfold cutPage
    dsimp only
    split
    · exact .inl rfl
    rename_i hfits
    right
    have hfirst : bytes + record.data.length ≤ limit := by simpa using hfits
    rcases @ih (bytes + record.data.length) with hnone | hrest
    · obtain ⟨-, -, -, hbytes⟩ := cutPage_split limit true (bytes + record.data.length) rest
      rw [hnone] at hbytes
      rw [hbytes]
      exact hfirst
    · exact hrest

theorem cutPage_fits (records : List HistoryRecord) :
    payloadBytes (cutPage limit false 0 records).page ≤ limit ∨
      (cutPage limit false 0 records).page.length = 1 := by
  cases records with
  | nil => exact .inl (Nat.zero_le _)
  | cons record rest =>
    have hpage : (cutPage limit false 0 (record :: rest)).page =
        record :: (cutPage limit true (0 + record.data.length) rest).page := by simp [cutPage]
    rw [hpage]
    rcases @cutPage_fits_rest limit (0 + record.data.length) rest with hnone | hrest
    · exact .inr (by rw [hnone]; rfl)
    left
    obtain ⟨-, -, -, hbytes⟩ := cutPage_split limit true (0 + record.data.length) rest
    rw [payloadBytes_cons]
    omega

theorem cutPage_append (limit : Nat) (chosen : Bool) (bytes : Nat)
    (first more : List HistoryRecord) : cutPage limit chosen bytes (first ++ more) =
      let found := cutPage limit chosen bytes first
      if found.cut then found
      else
        let rest := cutPage limit (chosen || !found.page.isEmpty) found.bytes more
        { rest with page := found.page ++ rest.page } := by
  induction first generalizing chosen bytes with
  | nil => simp [cutPage]
  | cons record rest ih =>
    rw [cons_append, cutPage, cutPage]
    dsimp only
    split
    · rfl
    rw [ih]
    dsimp only
    split
    · rfl
    · simp

end Cut

/-! ## Both readers cut the records -/

section Readers

variable {gzip : Gzip} {id : String} {dir : ArchiveDir} {state : ArchiveState}
  {groups : List (List HistoryRecord)} {blocks : List ArchiveBlock}
  {records : List HistoryRecord}

theorem Chronological.firstOf_le (h : Chronological records) {record : HistoryRecord}
    (hmem : record ∈ records) : firstOf records ≤ record.sequence := by
  cases records with
  | nil => cases hmem
  | cons first rest =>
    rcases mem_cons.mp hmem with rfl | hrest
    · exact le_rfl
    · exact Nat.le_of_lt (h.head_lt record hrest)

theorem Chronological.of_flatten (h : Chronological groups.flatten) {group : List HistoryRecord}
    (hmem : group ∈ groups) : Chronological group :=
  h.sublist (sublist_flatten_of_mem hmem)

section

variable (hgzip : gzip.Lossless)
include hgzip

theorem readAfter_stored (h : List.Forall₂ (StoredBlock gzip dir.files) blocks groups)
    (horder : ∀ group ∈ groups, Chronological group) (afterSequence : Nat) :
    ∃ read, (blocks.filter fun block => block.lastSequence > afterSequence).mapM
        (readBlock gzip (some dir)) = .ok read ∧
      read.flatten.filter (fun record => record.sequence > afterSequence) =
        groups.flatten.filter fun record => record.sequence > afterSequence := by
  induction h with
  | nil => exact ⟨[], rfl, rfl⟩
  | @cons block group blocks groups hblock _ ih =>
    have hgroup := horder group mem_cons_self
    obtain ⟨read, hread, hsame⟩ := ih fun other hmem => horder other (mem_cons_of_mem _ hmem)
    by_cases hlater : block.lastSequence > afterSequence
    · refine ⟨group :: read, ?_, ?_⟩
      · simp only [filter_cons, decide_eq_true hlater, if_true]
        rw [mapM_cons, hread, readBlock_stored hgzip hblock hgroup.valid]
        rfl
      · rw [flatten_cons, flatten_cons, filter_append, filter_append, hsame]
    · refine ⟨read, ?_, ?_⟩
      · simp only [filter_cons, decide_eq_false hlater, Bool.false_eq_true, if_false]
        exact hread
      · have hnone : group.filter (fun record => record.sequence > afterSequence) = [] := by
          rw [filter_eq_nil_iff]
          intro record hmem
          have hle := hgroup.le_lastOf hmem
          have hlast := hblock.last
          simp only [decide_eq_true_eq]
          omega
        rw [flatten_cons, filter_append, hnone, hsame]
        rfl

theorem cutBlocks_stored (h : List.Forall₂ (StoredBlock gzip dir.files) blocks groups)
    (horder : ∀ group ∈ groups, Chronological group) (limit ceiling : Nat) (chosen : Bool)
    (bytes : Nat) : cutBlocks gzip (some dir) limit ceiling chosen bytes blocks =
      .ok (cutPage limit chosen bytes ((groups.map List.reverse).flatten.filter
        fun record => record.sequence ≤ ceiling)) := by
  induction h generalizing chosen bytes with
  | nil => rfl
  | @cons block group blocks groups hblock _ ih =>
    have hgroup := horder group mem_cons_self
    have hrest := ih fun other hmem => horder other (mem_cons_of_mem _ hmem)
    rw [map_cons, flatten_cons, filter_append, cutPage_append]
    unfold cutBlocks
    split
    · rename_i hlater
      have hnone : group.reverse.filter (fun record => record.sequence ≤ ceiling) = [] := by
        rw [filter_eq_nil_iff]
        intro record hmem
        have hle := hgroup.firstOf_le (mem_reverse.mp hmem)
        have hfirst := hblock.first
        simp only [decide_eq_true_eq]
        omega
      rw [hnone, hrest]
      simp [cutPage]
    · rw [readBlock_stored hgzip hblock hgroup.valid]
      simp only [bind, Except.bind]
      split
      · rfl
      · rw [hrest]

theorem readPage_live (h : Live gzip id dir state groups)
    (limits : Limits) (afterSequence : Nat) (maxBytes : Option Nat) :
    readPage gzip limits afterSequence maxBytes (some dir) state =
      .ok (forwardPage (limits.page maxBytes) afterSequence
        (((groups.flatten ++ state.pending).getLast?.map HistoryRecord.sequence).getD afterSequence)
        (groups.flatten ++ state.pending)) := by
  obtain ⟨updatedAt, stale, hstored⟩ := h.stored
  have horder := (chronological_append.mp hstored.order).1
  obtain ⟨read, hread, hsame⟩ := readAfter_stored hgzip hstored.blocks
    (fun group hmem => horder.of_flatten hmem) afterSequence
  unfold readPage
  simp only [hread, bind, Except.bind]
  rw [h.newest]
  unfold forwardPage
  rw [filter_append, filter_append, hsame]

theorem readPageReverse_live (h : Live gzip id dir state groups)
    (limits : Limits) (beforeSequence : Nat) (maxBytes : Option Nat) :
    readPageReverse gzip limits beforeSequence maxBytes (some dir) state =
      .ok (reversePage (cutPage (limits.page maxBytes) false 0
        ((groups.flatten ++ state.pending).reverse.filter fun record => record.sequence ≤
          if beforeSequence = 0 then lastOf (groups.flatten ++ state.pending)
          else min (beforeSequence - 1) (lastOf (groups.flatten ++ state.pending))))) := by
  obtain ⟨updatedAt, stale, hstored⟩ := h.stored
  have horder := (chronological_append.mp hstored.order).1
  have hreversed := List.forall₂_reverse_iff.mpr hstored.blocks
  unfold readPageReverse
  simp only [h.lastSequence]
  generalize (if beforeSequence = 0 then lastOf (groups.flatten ++ state.pending)
    else min (beforeSequence - 1) (lastOf (groups.flatten ++ state.pending))) = ceiling
  rw [reverse_append, filter_append, cutPage_append, reverse_flatten, ← map_reverse]
  dsimp only
  split
  · rfl
  rw [cutBlocks_stored hgzip hreversed fun group hmem =>
    horder.of_flatten (mem_reverse.mp hmem)]
  simp [bind, Except.bind]

end

end Readers

/-! ## Page after page -/

def HistoryAnswer.page? : HistoryAnswer → Option TerminalHistoryPage
  | .page (.ok (some found)) => some found
  | _ => none

/-- The pages up to the first that is complete: each request has its time and
its limit, and starts where the page before it says. -/
def HistoryShared.pages (gzip : Gzip) (limits : Limits) (terminalId : String)
    (ask : Nat → Option Nat → HistoryQuery) (shared : HistoryShared) (cursor : Nat) :
    List (Nat × Option Nat) → Option (List TerminalHistoryPage)
  | [] => none
  | (now, maxBytes) :: requests =>
    let (answer, after) := shared.read gzip limits now terminalId (ask cursor maxBytes)
    answer.page?.bind fun page =>
      if page.complete then some [page]
      else (after.pages gzip limits terminalId ask page.nextSequence requests).map (page :: ·)

/-- A page that is not the last brings something, and only a single record may
be too long for it. -/
structure TerminalHistoryPage.Fits (limits : Limits) (request : Nat × Option Nat)
    (page : TerminalHistoryPage) : Prop where
  progress : page.complete = false → page.chunks ≠ []
  bounded : (page.chunks.map List.length).sum ≤ limits.page request.2 ∨ page.chunks.length = 1

def Cuts (limits : Limits) (remaining : Nat → List HistoryRecord)
    (shown : List HistoryRecord → List HistoryRecord) (cursor : Nat) (maxBytes : Option Nat)
    (page : TerminalHistoryPage) : Prop :=
  ∃ taken rest, remaining cursor = taken ++ rest ∧
    page.chunks = (shown taken).map HistoryRecord.data ∧
    (page.complete = true ↔ rest = []) ∧
    (rest ≠ [] → taken ≠ [] ∧ remaining page.nextSequence = rest) ∧
    (payloadBytes taken ≤ limits.page maxBytes ∨ taken.length = 1)

section Directions

variable {limits : Limits} {kept : List HistoryRecord}

section

variable (h : Chronological kept)
include h

theorem Chronological.after {cursor : Nat}
    {taken rest : List HistoryRecord} (htaken : taken ≠ [])
    (hsplit : kept.filter (fun record => record.sequence > cursor) = taken ++ rest) :
    kept.filter (fun record => record.sequence > lastOf taken) = rest := by
  have horder : Chronological (taken ++ rest) := hsplit ▸ h.sublist filter_sublist
  obtain ⟨last, -, hlast, hseq⟩ := lastOf_mem htaken
  have hcursor : cursor < lastOf taken := by
    have hmem : last ∈ kept.filter fun record => record.sequence > cursor := by
      rw [hsplit]
      exact mem_append_left _ hlast
    rw [hseq]
    exact of_decide_eq_true (mem_filter.mp hmem).2
  have hboth : kept.filter (fun record => record.sequence > lastOf taken) =
      (taken ++ rest).filter fun record => record.sequence > lastOf taken := by
    rw [← hsplit, List.filter_filter]
    refine filter_congr fun record _ => ?_
    cases hlater : decide (record.sequence > lastOf taken) with
    | false => rfl
    | true => exact (decide_eq_true (Nat.lt_trans hcursor (of_decide_eq_true hlater))).symm
  rw [hboth, filter_append, filter_eq_nil_iff.mpr, filter_eq_self.mpr, nil_append]
  · exact fun record hmem => decide_eq_true (horder.lastOf_lt hmem)
  intro record hmem hlater
  have hle := (chronological_append.mp horder).1.le_lastOf hmem
  have hlt := of_decide_eq_true hlater
  omega

theorem Chronological.before {before : Nat}
    {taken rest : List HistoryRecord} (htaken : taken ≠ [])
    (hsplit : kept.filter (fun record => before = 0 ∨ record.sequence < before) = rest ++ taken) :
    kept.filter (fun record => firstOf taken = 0 ∨ record.sequence < firstOf taken) = rest := by
  have horder : Chronological (rest ++ taken) := hsplit ▸ h.sublist filter_sublist
  obtain ⟨hrest, hordered, hacross⟩ := chronological_append.mp horder
  obtain ⟨first, -, hfirst, hseq⟩ := firstOf_mem htaken
  have hpositive : 0 < firstOf taken := hseq ▸ (hordered.valid first hfirst).positive
  have hbef : before = 0 ∨ firstOf taken < before := by
    have hmem : first ∈ kept.filter fun record => before = 0 ∨ record.sequence < before := by
      rw [hsplit]
      exact mem_append_right _ hfirst
    rw [hseq]
    exact of_decide_eq_true (mem_filter.mp hmem).2
  have hboth : kept.filter (fun record => firstOf taken = 0 ∨ record.sequence < firstOf taken) =
      (rest ++ taken).filter fun record =>
        firstOf taken = 0 ∨ record.sequence < firstOf taken := by
    rw [← hsplit, List.filter_filter]
    refine filter_congr fun record _ => ?_
    cases hearlier : decide (firstOf taken = 0 ∨ record.sequence < firstOf taken) with
    | false => rfl
    | true =>
      have hlt := (of_decide_eq_true hearlier).resolve_left (Nat.ne_of_gt hpositive)
      exact (decide_eq_true (hbef.imp_right (Nat.lt_trans hlt))).symm
  rw [hboth, filter_append, filter_eq_self.mpr, filter_eq_nil_iff.mpr, append_nil]
  · intro record hmem hearlier
    have hle := hordered.firstOf_le hmem
    have hlt := of_decide_eq_true hearlier
    omega
  · intro record hmem
    rw [hseq]
    exact decide_eq_true (.inr (hacross record hmem first hfirst))

theorem forwardPage_cuts (cursor : Nat) (maxBytes : Option Nat) :
    Cuts limits (fun cursor => kept.filter fun record => record.sequence > cursor) id cursor
      maxBytes (forwardPage (limits.page maxBytes) cursor
        ((kept.getLast?.map HistoryRecord.sequence).getD cursor) kept) := by
  obtain ⟨rest, hsplit, hcut, -⟩ := cutPage_split (limits.page maxBytes) false 0
    (kept.filter fun record => record.sequence > cursor)
  have hfits := @cutPage_fits (limits.page maxBytes)
    (kept.filter fun record => record.sequence > cursor)
  have hfirst := @cutPage_nonempty (limits.page maxBytes) 0
    (kept.filter fun record => record.sequence > cursor)
  unfold forwardPage
  generalize cutPage (limits.page maxBytes) false 0
    (kept.filter fun record => record.sequence > cursor) = found at *
  have hlast : found.page ≠ [] →
      (found.page.getLast?.map HistoryRecord.sequence).getD cursor = lastOf found.page := by
    intro hpage
    obtain ⟨last, hlast, -, hseq⟩ := lastOf_mem hpage
    rw [hlast, hseq]
    rfl
  have hpage : rest ≠ [] → found.page ≠ [] := by
    intro hrest
    apply hfirst
    rw [hsplit]
    exact append_ne_nil_of_right_ne_nil _ hrest
  refine ⟨found.page, rest, hsplit, rfl, ?_, fun hrest => ⟨hpage hrest, ?_⟩, hfits⟩
  · dsimp only
    split
    · rename_i hmore
      exact ⟨fun hnever => (nomatch hnever), fun hrest =>
        (nomatch hmore.symm.trans (hcut.mpr hrest))⟩
    rename_i hdone
    have hrest := hcut.mp (Bool.eq_false_iff.mpr hdone)
    refine ⟨fun _ => hrest, fun _ => decide_eq_true ?_⟩
    rw [hrest, append_nil] at hsplit
    -- the newest record is on the page, unless it is not after the cursor
    cases hnewest : kept.getLast? with
    | none =>
      rw [getLast?_eq_none_iff.mp hnewest] at hsplit
      rw [← hsplit]
      exact le_rfl
    | some newest =>
      have hmem := mem_of_getLast? hnewest
      show newest.sequence ≤ _
      by_cases hafter : newest.sequence > cursor
      · have hfound : newest ∈ found.page := by
          rw [← hsplit]
          exact mem_filter.mpr ⟨hmem, decide_eq_true hafter⟩
        rw [hlast (ne_nil_of_mem hfound)]
        exact (hsplit ▸ h.sublist filter_sublist : Chronological found.page).le_lastOf hfound
      · have hnone : found.page = [] := by
          rw [← hsplit, filter_eq_nil_iff]
          intro record hrecord hlater
          have hle := h.increasing.last_max hnewest record hrecord
          have hlt := of_decide_eq_true hlater
          omega
        rw [hnone]
        exact Nat.le_of_not_lt hafter
  · dsimp only
    rw [hlast (hpage hrest)]
    exact h.after (hpage hrest) hsplit

theorem reversePage_cuts (before : Nat) (maxBytes : Option Nat) :
    Cuts limits
      (fun before => (kept.filter fun record => before = 0 ∨ record.sequence < before).reverse)
      List.reverse before maxBytes (reversePage (cutPage (limits.page maxBytes) false 0
        (kept.reverse.filter fun record => record.sequence ≤
          if before = 0 then lastOf kept else min (before - 1) (lastOf kept)))) := by
  have hsame : kept.reverse.filter (fun record => record.sequence ≤
      if before = 0 then lastOf kept else min (before - 1) (lastOf kept)) =
      (kept.filter fun record => before = 0 ∨ record.sequence < before).reverse := by
    rw [filter_reverse]
    refine congrArg List.reverse (filter_congr fun record hmem => decide_eq_decide.mpr ?_)
    have hle := h.le_lastOf hmem
    split <;> omega
  rw [hsame]
  obtain ⟨rest, hsplit, hcut, -⟩ := cutPage_split (limits.page maxBytes) false 0
    (kept.filter fun record => before = 0 ∨ record.sequence < before).reverse
  have hfits := @cutPage_fits (limits.page maxBytes)
    (kept.filter fun record => before = 0 ∨ record.sequence < before).reverse
  have hfirst := @cutPage_nonempty (limits.page maxBytes) 0
    (kept.filter fun record => before = 0 ∨ record.sequence < before).reverse
  unfold reversePage
  generalize cutPage (limits.page maxBytes) false 0
    (kept.filter fun record => before = 0 ∨ record.sequence < before).reverse = found at *
  refine ⟨found.page, rest, hsplit, rfl, ?_, fun hrest => ?_, hfits⟩
  · rw [← hcut]
    exact Iff.of_eq (Bool.not_eq_true' found.cut)
  · have hpage : found.page ≠ [] := by
      apply hfirst
      rw [hsplit]
      exact append_ne_nil_of_right_ne_nil _ hrest
    refine ⟨hpage, ?_⟩
    have hback : kept.filter (fun record => before = 0 ∨ record.sequence < before) =
        rest.reverse ++ found.page.reverse := by
      rw [← reverse_append, ← hsplit, reverse_reverse]
    exact (congrArg List.reverse (h.before (reverse_ne_nil_iff.mpr hpage) hback)).trans
      (reverse_reverse rest)

end

end Directions

section Requests

variable {gzip : Gzip} {limits : Limits} {terminalId : String} {shared : HistoryShared}
  {kept : List HistoryRecord}

def HistoryShared.Keeps (gzip : Gzip) (terminalId : String) (kept : List HistoryRecord)
    (shared : HistoryShared) : Prop :=
  SlotHolds gzip terminalId kept (shared.slot terminalId) ∧
    (shared.slot terminalId).known = true

theorem HistoryShared.Keeps.read (h : shared.Keeps gzip terminalId kept) (limits : Limits)
    (now : Nat) : ∃ dir state groups, Live gzip terminalId dir state groups ∧
      kept = groups.flatten ++ state.pending ∧ ∀ query,
        (shared.read gzip limits now terminalId query).1 =
            query.answer gzip limits terminalId (some dir) state ∧
          (shared.read gzip limits now terminalId query).2.Keeps gzip terminalId kept := by
  obtain ⟨hslot, hknown⟩ := h
  obtain ⟨-, -, state, dir, groups, hres, hdir, hlive, hkept⟩ := hslot.opened now
  have hstate := stateFor_state terminalId now (shared.slot terminalId)
  rw [hres] at hstate
  have hafter : (stateFor terminalId now (shared.slot terminalId)).slot (shared.slot terminalId) =
      ⟨some dir, some state⟩ := by
    unfold Effect.slot
    rw [hdir, hstate]
    rfl
  refine ⟨dir, state, groups, hlive, hkept, fun query => ?_⟩
  unfold HistoryShared.read HistoryShared.Keeps
  dsimp only
  rw [if_pos hknown, hres, hafter]
  refine ⟨rfl, ?_⟩
  rw [slot_setSlot, if_pos rfl]
  exact ⟨.warm hlive hkept, rfl⟩

/-- Pages that show what remains piece by piece show all of it in the end. -/
theorem pages_exact {ask : Nat → Option Nat → HistoryQuery}
    {remaining : Nat → List HistoryRecord} {shown : List HistoryRecord → List HistoryRecord}
    (hlength : ∀ records, payloadBytes (shown records) = payloadBytes records ∧
      (shown records).length = records.length)
    (hread : ∀ shared : HistoryShared, shared.Keeps gzip terminalId kept →
      ∀ now cursor maxBytes, ∃ page,
        (shared.read gzip limits now terminalId (ask cursor maxBytes)).1.page? = some page ∧
          Cuts limits remaining shown cursor maxBytes page)
    (h : shared.Keeps gzip terminalId kept) (requests : List (Nat × Option Nat)) {cursor : Nat}
    (hrequests : (remaining cursor).length < requests.length) :
    ∃ pages pieces, shared.pages gzip limits terminalId ask cursor requests = some pages ∧
      List.Forall₂ (fun page piece => page.chunks = (shown piece).map HistoryRecord.data)
        pages pieces ∧
      pieces.flatten = remaining cursor ∧
      List.Forall₂ (TerminalHistoryPage.Fits limits) (requests.take pages.length) pages := by
  induction requests generalizing shared cursor with
  | nil => cases hrequests
  | cons request requests ih =>
    obtain ⟨now, maxBytes⟩ := request
    obtain ⟨dir, state, groups, -, -, hquery⟩ := h.read limits now
    obtain ⟨page, hpage, taken, rest, hsplit, hchunks, hcomplete, hnext, hfits⟩ :=
      hread shared h now cursor maxBytes
    have hkeeps := (hquery (ask cursor maxBytes)).2
    have hlengths := hlength taken
    have hfit : page.Fits limits (now, maxBytes) := by
      constructor
      · intro hmore
        have hrest : rest ≠ [] := fun hnil => nomatch hmore.symm.trans (hcomplete.mpr hnil)
        have htaken := (hnext hrest).1
        rw [hchunks, ne_eq, map_eq_nil_iff, ← length_eq_zero_iff, hlengths.2, length_eq_zero_iff]
        exact htaken
      · rw [hchunks, List.map_map, List.length_map, hlengths.2]
        exact hfits.imp_left (le_of_eq_of_le hlengths.1)
    unfold HistoryShared.pages
    dsimp only
    rw [hpage, bind_some]
    cases hdone : page.complete with
    | true =>
      have hrest := hcomplete.mp hdone
      refine ⟨[page], [taken], rfl, .cons hchunks .nil, ?_, .cons hfit .nil⟩
      rw [hsplit, hrest]
      simp
    | false =>
      have hrest : rest ≠ [] := fun hnil => nomatch hdone.symm.trans (hcomplete.mpr hnil)
      obtain ⟨htaken, hremaining⟩ := hnext hrest
      have hshorter : (remaining page.nextSequence).length < requests.length := by
        have hpositive := length_pos_iff.mpr htaken
        rw [hsplit, length_append, length_cons] at hrequests
        rw [hremaining]
        omega
      obtain ⟨pages, pieces, hpages, hshown, hall, hfitting⟩ := ih hkeeps hshorter
      refine ⟨page :: pages, taken :: pieces, ?_, .cons hchunks hshown, ?_, .cons hfit hfitting⟩
      · rw [hpages]
        rfl
      · rw [flatten_cons, hall, hremaining, hsplit]

theorem readPage_exact (hgzip : gzip.Lossless) (h : shared.Keeps gzip terminalId kept)
    (requests : List (Nat × Option Nat)) (hrequests : kept.length < requests.length)
    (cursor : Nat) : ∃ pages,
      shared.pages gzip limits terminalId .readPage cursor requests = some pages ∧
      pages.flatMap TerminalHistoryPage.chunks =
        (kept.filter fun record => record.sequence > cursor).map HistoryRecord.data ∧
      List.Forall₂ (TerminalHistoryPage.Fits limits) (requests.take pages.length) pages := by
  have hread : ∀ shared : HistoryShared, shared.Keeps gzip terminalId kept →
      ∀ now cursor maxBytes, ∃ page,
        (shared.read gzip limits now terminalId (.readPage cursor maxBytes)).1.page? = some page ∧
          Cuts limits (fun cursor => kept.filter fun record => record.sequence > cursor) id cursor
            maxBytes page := by
    intro shared hshared now cursor maxBytes
    obtain ⟨dir, state, groups, hlive, hkept, hquery⟩ := hshared.read limits now
    obtain ⟨updatedAt, stale, hstored⟩ := hlive.stored
    refine ⟨_, ?_, forwardPage_cuts (hkept ▸ hstored.order) cursor maxBytes⟩
    rw [(hquery _).1, HistoryQuery.answer, readPage_live hgzip hlive, ← hkept]
    rfl
  have hshort : (kept.filter fun record => record.sequence > cursor).length < requests.length :=
    Nat.lt_of_le_of_lt (length_filter_le _ _) hrequests
  obtain ⟨pages, pieces, hpages, hshown, hall, hfits⟩ :=
    pages_exact (fun _ => ⟨rfl, rfl⟩) hread h requests hshort
  refine ⟨pages, hpages, ?_, hfits⟩
  rw [← hall]
  clear hpages hall hfits
  induction hshown with
  | nil => rfl
  | cons hchunks _ ih =>
    rw [flatMap_cons, ih, hchunks, flatten_cons, map_append]

theorem readPageReverse_exact (hgzip : gzip.Lossless) (h : shared.Keeps gzip terminalId kept)
    (requests : List (Nat × Option Nat)) (hrequests : kept.length < requests.length) : ∃ pages,
      shared.pages gzip limits terminalId .readPageReverse 0 requests = some pages ∧
      pages.reverse.flatMap TerminalHistoryPage.chunks = kept.map HistoryRecord.data ∧
      List.Forall₂ (TerminalHistoryPage.Fits limits) (requests.take pages.length) pages := by
  have hread : ∀ shared : HistoryShared, shared.Keeps gzip terminalId kept →
      ∀ now before maxBytes, ∃ page,
        (shared.read gzip limits now terminalId (.readPageReverse before maxBytes)).1.page? =
            some page ∧
          Cuts limits
            (fun before => (kept.filter fun record =>
              before = 0 ∨ record.sequence < before).reverse)
            List.reverse before maxBytes page := by
    intro shared hshared now before maxBytes
    obtain ⟨dir, state, groups, hlive, hkept, hquery⟩ := hshared.read limits now
    obtain ⟨updatedAt, stale, hstored⟩ := hlive.stored
    refine ⟨_, ?_, reversePage_cuts (hkept ▸ hstored.order) before maxBytes⟩
    rw [(hquery _).1, HistoryQuery.answer, readPageReverse_live hgzip hlive, ← hkept]
    rfl
  have hwhole : (kept.filter fun record => (0 : Nat) = 0 ∨ record.sequence < 0).reverse =
      kept.reverse := by simp
  obtain ⟨pages, pieces, hpages, hshown, hall, hfits⟩ := pages_exact
    (fun records => ⟨by simp [payloadBytes, map_reverse], length_reverse⟩) hread h requests
    (by rw [hwhole, length_reverse]; exact hrequests)
  refine ⟨pages, hpages, ?_, hfits⟩
  rw [← reverse_reverse kept, ← hwhole, ← hall]
  clear hpages hall hfits
  induction hshown with
  | nil => rfl
  | cons hchunks _ ih =>
    rw [reverse_cons, flatMap_append, ih, flatMap_singleton, hchunks,
      flatten_cons, reverse_append, map_append]

end Requests

/-! ## Runs without eviction -/

section Runs

variable {gzip : Gzip} {limits : Limits} {terminalId : String} {world : CrashWorld}
  {shared : HistoryShared}

def Unevicted (gzip : Gzip) (limits : Limits) (terminalId : String) (world : CrashWorld)
    (action : CrashAction) : Prop :=
  removedFiles (action.done gzip limits terminalId world.slot) = []

theorem unevicted_removed
    (hrun : (crashSystem gzip limits terminalId).Run (Unevicted gzip limits terminalId) world) :
    world.removed = [] := by
  apply hrun.invariant
  · rintro start rfl
    rfl
  · intro world action world' hrem hallow hstep
    obtain ⟨-, hstep⟩ := ite_none_right_eq_some.mp hstep
    cases hstep
    exact append_eq_nil_iff.mpr ⟨hrem, hallow⟩

/-- Page after page, in either direction and whatever the limits of the
requests, an archive gives back all records that were written to it. -/
theorem paging_lossless (hgzip : gzip.Lossless)
    (hrun : (crashSystem gzip limits terminalId).Run (Unevicted gzip limits terminalId) world)
    (hshared : shared.slot terminalId = world.slot) : (world.written = [] ∧
        ∀ now query, (shared.read gzip limits now terminalId query).1 = query.nothing) ∨
      ∀ requests : List (Nat × Option Nat), world.written.length < requests.length →
        (∀ cursor, ∃ pages,
          shared.pages gzip limits terminalId .readPage cursor requests = some pages ∧
          pages.flatMap TerminalHistoryPage.chunks =
            (world.written.filter fun record => record.sequence > cursor).map
              HistoryRecord.data ∧
          List.Forall₂ (TerminalHistoryPage.Fits limits) (requests.take pages.length) pages) ∧
        ∃ pages,
          shared.pages gzip limits terminalId .readPageReverse 0 requests = some pages ∧
          pages.reverse.flatMap TerminalHistoryPage.chunks =
            world.written.map HistoryRecord.data ∧
          List.Forall₂ (TerminalHistoryPage.Fits limits) (requests.take pages.length) pages := by
  have hfoll : (crashSystem gzip limits terminalId).Run (IndexFollows gzip limits terminalId)
      world := hrun.weaken fun _ _ => publishes_unremoved
  obtain ⟨gone, kept, hrem, hwrt, hslot⟩ := (crash_reachable hfoll).kept
  rw [unevicted_removed hrun] at hrem
  rw [map_eq_nil_iff.mp hrem.symm, flatten_nil, nil_append] at hwrt
  rw [← hwrt, ← hshared] at hslot
  cases hknown : (shared.slot terminalId).known with
  | true =>
    right
    intro requests hrequests
    exact ⟨readPage_exact hgzip ⟨hslot, hknown⟩ requests hrequests,
      readPageReverse_exact hgzip ⟨hslot, hknown⟩ requests hrequests⟩
  | false =>
    left
    constructor
    · obtain ⟨hdir, -⟩ := Bool.or_eq_false_iff.mp hknown
      rcases hslot.holds with ⟨hnone, -⟩ | ⟨dir, -, -, -, -, -, hsome, -, -⟩
      · exact hnone
      · rw [hsome] at hdir
        cases hdir
    · intro now query
      unfold HistoryShared.read
      dsimp only
      rw [hknown]
      rfl

/-- Three records, two in a block of their own and one pending, on pages of
one byte. -/
theorem paging_lossless_sample : ∃ world,
    (crashSystem plainGzip ⟨3, 4⟩ "t").Run (Unevicted plainGzip ⟨3, 4⟩ "t") world ∧
    world.written.length = 3 ∧
    ∃ pages, (⟨IndexMap.empty.insert "t" world.slot, [], [], .empty⟩ : HistoryShared).pages
        plainGzip ⟨3, 4⟩ "t" .readPageReverse 0 [(0, some 1), (0, some 1), (0, some 1), (0, none)] =
      some pages ∧ pages.reverse.flatMap TerminalHistoryPage.chunks =
        world.written.map HistoryRecord.data := by
  have hstart : (crashSystem plainGzip ⟨3, 4⟩ "t").Run (Unevicted plainGzip ⟨3, 4⟩ "t")
      ⟨⟨none, none⟩, [], [], []⟩ := System.Run.start rfl
  have hfirst := @System.Run.next _ _ _ _ _ _ ⟨.appendOwned sampleRecord, 0, none⟩ hstart
    (by unfold Unevicted; decide) rfl
  have hsecond := @System.Run.next _ _ _ _ _ _ ⟨.appendOwned ⟨2, [33, 34]⟩, 1, none⟩ hfirst
    (by unfold Unevicted; decide) rfl
  have hthird := @System.Run.next _ _ _ _ _ _ ⟨.appendOwned ⟨5, [35]⟩, 2, none⟩ hsecond
    (by unfold Unevicted; decide) rfl
  refine ⟨_, hthird, by decide, ?_⟩
  rcases @paging_lossless plainGzip ⟨3, 4⟩ "t" _
    ⟨IndexMap.empty.insert "t" _, [], [], .empty⟩ (fun _ => rfl) hthird rfl with
    ⟨hnone, -⟩ | hpages
  · exact absurd hnone (by decide)
  obtain ⟨pages, hreverse, hall, -⟩ := (hpages [(0, some 1), (0, some 1), (0, some 1), (0, none)]
    (by decide)).2
  exact ⟨pages, hreverse, hall⟩

end Runs

end Yaade.History
