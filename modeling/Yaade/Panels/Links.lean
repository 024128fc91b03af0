import Yaade.Library.CaseMapping
import Yaade.Library.StableSort

/-!
The links of a terminal line: the matches of the two patterns, and what is cut
from their ends.
-/

namespace Yaade.Panels.Links

open Library Library.Utf16 List

structure RawMatch where
  index : Nat
  text : Units

/-- A pattern as `matchAll` reads it: leftmost matches that do not overlap. -/
structure Pattern where
  matchAll : Units → List RawMatch
  slices : ∀ line, ∀ raw ∈ matchAll line, raw.text = (line.drop raw.index).take raw.text.length
  apart : ∀ line, (matchAll line).Pairwise fun a b => a.index + a.text.length ≤ b.index

structure GhosttyTerminalLinkMatch where
  text : Units
  start : Nat
  stop : Nat
deriving DecidableEq

inductive TerminalLinkKind
  | url
  | path
deriving DecidableEq

structure TerminalLinkMatch extends GhosttyTerminalLinkMatch where
  kind : TerminalLinkKind
deriving DecidableEq

/-! ## Trimming -/

/-- `. , ; ! ?` -/
def isPunctuation (unit : UInt16) : Bool := [46, 44, 59, 33, 63].contains unit

/-- The text stands reversed, as the loop reads it from its end. -/
def trimUnbalanced (opening closing : UInt16) : Units → Units
  | [] => []
  | last :: rest =>
    if last = closing then
      let opens := (last :: rest).count opening
      let closes := (last :: rest).count closing
      if opens ≥ closes then last :: rest else trimUnbalanced opening closing rest
    else last :: rest

/-- Both files have it in the same words. -/
def trimClosingDelimiters (value : Units) : Units :=
  let output := value.reverse.dropWhile isPunctuation
  if output = [] then []
  else
    let output := trimUnbalanced 40 41 output
    let output := trimUnbalanced 91 93 output
    (trimUnbalanced 123 125 output).reverse

/-! ## The two functions -/

def RawMatch.trimmed (raw : RawMatch) : Units := trimClosingDelimiters raw.text

def candidate (raw : RawMatch) : GhosttyTerminalLinkMatch :=
  ⟨raw.trimmed, raw.index, raw.index + raw.trimmed.length⟩

def matchTerminalUrls (url : Pattern) (line : Units) : List GhosttyTerminalLinkMatch :=
  (url.matchAll line).filterMap fun raw =>
    if raw.text = [] then none else if raw.trimmed = [] then none else some (candidate raw)

/-- `/^https?:\/\//i` -/
def startsWithHttp (text : Units) : Bool :=
  let lowered := text.map asciiLower
  (units "http://").isPrefixOf lowered || (units "https://").isPrefixOf lowered

def overlaps (a b : GhosttyTerminalLinkMatch) : Bool := a.start < b.stop && b.start < a.stop

def collectMatch (kind : TerminalLinkKind) (existing found : List TerminalLinkMatch)
    (raw : RawMatch) : List TerminalLinkMatch :=
  if raw.text = [] then found
  else if raw.trimmed = [] then found
  else if kind = .path ∧ startsWithHttp raw.trimmed then found
  else if (existing ++ found).any fun other => overlaps (candidate raw) other.1 then found
  else found ++ [⟨candidate raw, kind⟩]

def collectMatches (kind : TerminalLinkKind) (raws : List RawMatch)
    (existing : List TerminalLinkMatch) : List TerminalLinkMatch :=
  raws.foldl (collectMatch kind existing) []

def urlMatches (url : Pattern) (line : Units) : List TerminalLinkMatch :=
  collectMatches .url (url.matchAll line) []

def extractTerminalLinks (url path : Pattern) (line : Units) : List TerminalLinkMatch :=
  let pathMatches := collectMatches .path (path.matchAll line) (urlMatches url line)
  orderBy (fun link => link.start) (urlMatches url line ++ pathMatches)

/-! ## What is wanted -/

def brackets : List (UInt16 × UInt16) := [(40, 41), (91, 93), (123, 125)]

/-- Whether a text, reversed, ends in punctuation or in a bracket that is more
often closed than open. -/
def trimmable : Units → Bool
  | [] => false
  | last :: rest =>
    isPunctuation last || brackets.any fun (opening, closing) =>
      last == closing && (last :: rest).count opening < (last :: rest).count closing

/-- One reversed text is left of another when only what is trimmable is cut. -/
inductive Trims : Units → Units → Prop
  | done {text : Units} : Trims text text
  | last {last : UInt16} {rest text : Units} (h : trimmable (last :: rest) = true)
      (more : Trims rest text) : Trims (last :: rest) text

structure Detected (line : Units) (raws : List RawMatch)
    (links : List GhosttyTerminalLinkMatch) : Prop where
  increasing : links.Pairwise fun a b => a.start < b.start
  disjoint : links.Pairwise fun a b => a.stop ≤ b.start
  nonempty : ∀ link ∈ links, link.text ≠ []
  slice : ∀ link ∈ links, link.text = (line.take link.stop).drop link.start
  trimmed : ∀ link ∈ links, trimmable link.text.reverse = false
  onlyTrimmed : ∀ link ∈ links, ∃ raw ∈ raws,
    raw.index = link.start ∧ Trims raw.text.reverse link.text.reverse

structure LinksTrimmed (url path : Pattern) (line : Units) : Prop where
  urls : Detected line (url.matchAll line) (matchTerminalUrls url line)
  links : Detected line (url.matchAll line ++ path.matchAll line)
    ((extractTerminalLinks url path line).map (·.1))
  same : ((extractTerminalLinks url path line).filter (·.kind = .url)).map (·.1) =
    matchTerminalUrls url line

/-- The trimmable units at the end of a reversed text. -/
def tail : Units → Units
  | [] => []
  | last :: rest => if trimmable (last :: rest) then last :: tail rest else []

def rank (unit : UInt16) : ℤ :=
  if unit = 41 then 1 else if unit = 93 then 2 else if unit = 125 then 3 else 0

/-- Read from its end, a text has punctuation first, then `)`, then `]`, then
`}` in its trimmable end. -/
def Orderly (text : Units) : Prop := OrderedBy rank (tail text.reverse)

/-- A match of the path pattern that is an URL or lies over one. -/
def SetAside (url : Pattern) (line : Units) (raw : RawMatch) : Prop :=
  startsWithHttp raw.trimmed = true ∨ ∃ other ∈ url.matchAll line, other.trimmed ≠ [] ∧
    overlaps (candidate raw) (candidate other) = true

section Trimming

variable {text rest : Units} {last : UInt16}

/-- What a loop leaves that goes on while the end is trimmable and of one rank. -/
theorem tail_strip (strip : Units → Units) {k : ℤ} (hnil : strip [] = [])
    (hcons : ∀ last rest, strip (last :: rest) =
      if trimmable (last :: rest) = true ∧ rank last = k then strip rest else last :: rest)
    (text : Units) :
    tail (strip text) = (tail text).dropWhile (rank · = k) ∧ Trims text (strip text) := by
  induction text with
  | nil => exact ⟨by rw [hnil]; rfl, by rw [hnil]; exact .done⟩
  | cons last rest ih =>
    rw [hcons]
    by_cases htrim : trimmable (last :: rest) = true
    · by_cases hrank : rank last = k
      · rw [if_pos ⟨htrim, hrank⟩]
        refine ⟨?_, .last htrim ih.2⟩
        rw [ih.1, tail, if_pos htrim, dropWhile_cons_of_pos (by simpa using hrank)]
      · rw [if_neg fun h => hrank h.2]
        refine ⟨?_, .done⟩
        rw [tail, if_pos htrim, dropWhile_cons_of_neg (by simpa using hrank)]
    · rw [if_neg fun h => htrim h.1]
      refine ⟨?_, .done⟩
      rw [tail, if_neg htrim]
      rfl

theorem dropWhile_cons_eq : (last :: rest).dropWhile isPunctuation =
    if trimmable (last :: rest) = true ∧ rank last = 0 then rest.dropWhile isPunctuation
      else last :: rest := by
  by_cases hpunct : isPunctuation last = true
  · have hmem : last ∈ ([46, 44, 59, 33, 63] : Units) := by simpa [isPunctuation] using hpunct
    have hrank : ∀ unit ∈ ([46, 44, 59, 33, 63] : Units), rank unit = 0 := by simp [rank]
    rw [dropWhile_cons_of_pos hpunct, if_pos ⟨by simp [trimmable, hpunct], hrank last hmem⟩]
  · rw [dropWhile_cons_of_neg hpunct, if_neg]
    rintro ⟨htrim, hrank⟩
    simp only [trimmable, hpunct, Bool.false_or, any_eq_true, Bool.and_eq_true, beq_iff_eq] at htrim
    obtain ⟨pair, hpair, rfl, -⟩ := htrim
    have hne : ∀ pair ∈ brackets, rank pair.2 ≠ 0 := by simp [brackets, rank]
    exact hne pair hpair hrank

theorem trimUnbalanced_cons_eq {opening closing : UInt16} (h : (opening, closing) ∈ brackets) :
    trimUnbalanced opening closing (last :: rest) =
      if trimmable (last :: rest) = true ∧ rank last = rank closing then
        trimUnbalanced opening closing rest else last :: rest := by
  have hclose : trimmable (closing :: rest) = true ↔
      ¬(closing :: rest).count opening ≥ (closing :: rest).count closing := by
    simp only [brackets, mem_cons, Prod.mk.injEq, not_mem_nil, or_false] at h
    rcases h with ⟨rfl, rfl⟩ | ⟨rfl, rfl⟩ | ⟨rfl, rfl⟩ <;> simp [trimmable, brackets, isPunctuation]
  have hrank : rank last = rank closing → last = closing := by
    simp only [brackets, mem_cons, Prod.mk.injEq, not_mem_nil, or_false] at h
    unfold rank
    rcases h with ⟨rfl, rfl⟩ | ⟨rfl, rfl⟩ | ⟨rfl, rfl⟩ <;> split_ifs <;> simp_all
  conv_lhs => rw [trimUnbalanced]
  by_cases hlast : last = closing
  · subst hlast
    simp only [if_true, hclose, and_true, ite_not]
  · rw [if_neg hlast, if_neg fun hand => hlast (hrank hand.2)]

theorem Trims.trans {a b c : Units} (h : Trims a b) (h' : Trims b c) : Trims a c := by
  induction h with
  | done => exact h'
  | last htrim _ ih => exact .last htrim (ih h')

theorem Trims.suffix {a b : Units} (h : Trims a b) : b <:+ a := by
  induction h with
  | done => exact suffix_refl _
  | last _ _ ih => exact ih.trans (suffix_cons _ _)

/-- Each loop drops from the trimmable end what is of its rank. -/
theorem trimClosingDelimiters_spec (value : Units) : tail (trimClosingDelimiters value).reverse =
        ((((tail value.reverse).dropWhile (rank · = 0)).dropWhile (rank · = 1)).dropWhile
          (rank · = 2)).dropWhile (rank · = 3) ∧
      Trims value.reverse (trimClosingDelimiters value).reverse := by
  have hloops : (trimClosingDelimiters value).reverse = trimUnbalanced 123 125
      (trimUnbalanced 91 93 (trimUnbalanced 40 41 (value.reverse.dropWhile isPunctuation))) := by
    simp only [trimClosingDelimiters]
    split
    · rename_i hempty
      rw [hempty]
      rfl
    · exact reverse_reverse _
  obtain ⟨hpunct, hpunct'⟩ := tail_strip (dropWhile isPunctuation) rfl
    (fun _ _ => dropWhile_cons_eq) value.reverse
  obtain ⟨hround, hround'⟩ := tail_strip (k := 1) (trimUnbalanced 40 41) rfl
    (fun _ _ => trimUnbalanced_cons_eq (by decide)) (value.reverse.dropWhile isPunctuation)
  obtain ⟨hsquare, hsquare'⟩ := tail_strip (k := 2) (trimUnbalanced 91 93) rfl
    (fun _ _ => trimUnbalanced_cons_eq (by decide)) (trimUnbalanced 40 41 _)
  obtain ⟨hcurly, hcurly'⟩ := tail_strip (k := 3) (trimUnbalanced 123 125) rfl
    (fun _ _ => trimUnbalanced_cons_eq (by decide)) (trimUnbalanced 91 93 _)
  rw [hloops, hcurly, hsquare, hround, hpunct]
  exact ⟨rfl, ((hpunct'.trans hround').trans hsquare').trans hcurly'⟩

theorem tail_eq_nil : tail text = [] ↔ trimmable text = false := by
  cases text with
  | nil => exact iff_of_true rfl rfl
  | cons last rest =>
    unfold tail
    split <;> simp_all

theorem rank_bounds (unit : UInt16) : 0 ≤ rank unit ∧ rank unit < 4 := by
  unfold rank
  split_ifs <;> decide

/-- What is left is trimmed exactly when the loops meet the ranks in order. -/
theorem orderly_iff (value : Units) :
    Orderly value ↔ trimmable (trimClosingDelimiters value).reverse = false := by
  have hstart : Orderly value ↔ OrderedBy rank (tail value.reverse) ∧
      ∀ unit ∈ tail value.reverse, 0 ≤ rank unit :=
    (and_iff_left fun unit _ => (rank_bounds unit).1).symm
  rw [hstart, orderedBy_dropWhile, orderedBy_dropWhile, orderedBy_dropWhile, orderedBy_dropWhile,
    ← tail_eq_nil, (trimClosingDelimiters_spec value).1]
  constructor
  · rintro ⟨-, hlarge⟩
    exact eq_nil_iff_forall_not_mem.mpr fun unit hunit =>
      absurd (hlarge unit hunit) (not_le.mpr (rank_bounds unit).2)
  · intro hnil
    simp only [zero_add, Int.reduceAdd, hnil]
    exact ⟨.nil, forall_mem_nil _⟩

end Trimming

section Links

variable {url path : Pattern} {line : Units} {raws : List RawMatch} {raw : RawMatch}

theorem trims_trimmed (raw : RawMatch) : Trims raw.text.reverse raw.trimmed.reverse :=
  (trimClosingDelimiters_spec raw.text).2

theorem candidate_le (raw : RawMatch) : (candidate raw).stop ≤ raw.index + raw.text.length := by
  have hlength := (trims_trimmed raw).suffix.length_le
  rw [length_reverse, length_reverse] at hlength
  exact Nat.add_le_add_left hlength _

theorem candidate_lt (h : raw.trimmed ≠ []) : (candidate raw).start < (candidate raw).stop :=
  Nat.lt_add_of_pos_right (length_pos_of_ne_nil h)

/-- The links cut from some of the raw matches, in order and apart, are as
wanted when the end of each of these meets the loops in their order. -/
theorem detected_iff {kept : List RawMatch} {links : List GhosttyTerminalLinkMatch}
    (hslices : ∀ raw ∈ raws, raw.text = (line.drop raw.index).take raw.text.length)
    (hkept : ∀ raw ∈ kept, raw ∈ raws ∧ raw.trimmed ≠ []) (hlinks : links.Perm (kept.map candidate))
    (hdisjoint : links.Pairwise fun a b => a.stop ≤ b.start) :
    Detected line raws links ↔ ∀ raw ∈ kept, Orderly raw.text := by
  have hall {P : GhosttyTerminalLinkMatch → Prop} :
      (∀ link ∈ links, P link) ↔ ∀ raw ∈ kept, P (candidate raw) := by
    simp only [hlinks.mem_iff, forall_mem_map]
  have hnonempty : ∀ link ∈ links, link.text ≠ [] := hall.mpr fun raw hraw => (hkept raw hraw).2
  have hslice : ∀ link ∈ links, link.text = (line.take link.stop).drop link.start := by
    refine hall.mpr fun raw hraw => ?_
    have hcut : raw.trimmed <+: raw.text := reverse_suffix.mp (trims_trimmed raw).suffix
    have htext := prefix_iff_eq_take.mp hcut
    rw [hslices raw (hkept raw hraw).1, take_take, min_eq_left hcut.length_le] at htext
    simp only [candidate]
    rwa [drop_take, Nat.add_sub_cancel_left]
  have hfilled : ∀ link ∈ links, link.start < link.stop :=
    hall.mpr fun raw hraw => candidate_lt (hkept raw hraw).2
  have hincreasing : links.Pairwise fun a b => a.start < b.start :=
    hdisjoint.imp_of_mem fun ha _ hle => (hfilled _ ha).trans_le hle
  have honly : ∀ link ∈ links, ∃ raw ∈ raws,
      raw.index = link.start ∧ Trims raw.text.reverse link.text.reverse :=
    hall.mpr fun raw hraw => ⟨raw, (hkept raw hraw).1, rfl, trims_trimmed raw⟩
  have htrimmed : (∀ raw ∈ kept, Orderly raw.text) ↔
      ∀ link ∈ links, trimmable link.text.reverse = false := by
    refine Iff.trans ?_ hall.symm
    exact forall₂_congr fun raw _ => orderly_iff raw.text
  rw [htrimmed]
  exact ⟨Detected.trimmed, fun h => ⟨hincreasing, hdisjoint, hnonempty, hslice, h, honly⟩⟩

theorem trimmed_nil (h : raw.text = []) : raw.trimmed = [] := by
  rw [RawMatch.trimmed, h]
  rfl

theorem matchTerminalUrls_eq : matchTerminalUrls url line =
    ((url.matchAll line).filter fun raw => raw.trimmed ≠ []).map candidate := by
  unfold matchTerminalUrls
  induction url.matchAll line with
  | nil => rfl
  | cons raw rest ih =>
    rw [filterMap_cons, filter_cons, ih]
    by_cases hraw : raw.text = []
    · simp [hraw, trimmed_nil hraw]
    · by_cases htrim : raw.trimmed = [] <;> simp [hraw, htrim]

def accepts (kind : TerminalLinkKind) (existing : List TerminalLinkMatch) (raw : RawMatch) : Bool :=
  raw.trimmed ≠ [] && !(kind = .path ∧ startsWithHttp raw.trimmed) &&
    !(existing.any fun other => overlaps (candidate raw) other.1)

/-- Matches found before end where a later one begins, so only those of the
other pattern can collide with it. -/
theorem foldl_collectMatch {kind : TerminalLinkKind} {existing found : List TerminalLinkMatch}
    (hapart : raws.Pairwise fun a b => a.index + a.text.length ≤ b.index)
    (hfound : ∀ link ∈ found, ∀ raw ∈ raws, link.stop ≤ raw.index) :
    raws.foldl (collectMatch kind existing) found =
      found ++ (raws.filter (accepts kind existing)).map fun raw => ⟨candidate raw, kind⟩ := by
  induction raws generalizing found with
  | nil => simp
  | cons raw rest ih =>
    obtain ⟨hfirst, hrest⟩ := pairwise_cons.mp hapart
    have hclear : (found.any fun other => overlaps (candidate raw) other.1) = false := by
      rw [any_eq_false]
      intro other hother
      have hle := hfound other hother raw mem_cons_self
      simp [overlaps, candidate, Nat.not_lt.mpr hle]
    have hlater : ∀ link ∈ found, ∀ raw ∈ rest, link.stop ≤ raw.index := fun link hlink raw hraw =>
      hfound link hlink raw (mem_cons_of_mem _ hraw)
    have hstep : collectMatch kind existing found raw =
        if accepts kind existing raw then found ++ [⟨candidate raw, kind⟩] else found := by
      unfold collectMatch accepts
      rw [any_append, hclear, Bool.or_false]
      generalize existing.any _ = collides
      by_cases hraw : raw.text = []
      · simp [hraw, trimmed_nil hraw]
      · cases collides <;> split_ifs <;> simp_all
    rw [foldl_cons, filter_cons, hstep]
    split
    · rw [ih hrest, map_cons, append_assoc]
      · rfl
      intro link hlink other hother
      rcases mem_append.mp hlink with hold | hnew
      · exact hlater link hold other hother
      · obtain rfl := mem_singleton.mp hnew
        exact (candidate_le raw).trans (hfirst other hother)
    · exact ih hrest hlater

theorem collectMatches_eq (kind : TerminalLinkKind) (existing : List TerminalLinkMatch) :
    collectMatches kind (path.matchAll line) existing =
      ((path.matchAll line).filter (accepts kind existing)).map fun raw =>
        ⟨candidate raw, kind⟩ :=
  foldl_collectMatch (path.apart line) (forall_mem_nil _)

theorem collectMatches_disjoint (kind : TerminalLinkKind) (existing : List TerminalLinkMatch) :
    (collectMatches kind (path.matchAll line) existing).Pairwise fun a b => a.stop ≤ b.start := by
  rw [collectMatches_eq]
  exact pairwise_map.mpr (((path.apart line).filter _).imp fun hle => (candidate_le _).trans hle)

theorem urlMatches_eq : urlMatches url line =
    ((url.matchAll line).filter fun raw => raw.trimmed ≠ []).map fun raw =>
      ⟨candidate raw, .url⟩ := by
  rw [urlMatches, collectMatches_eq]
  congr 2
  funext raw
  simp [accepts]

theorem accepts_path (raw : RawMatch) : accepts .path (urlMatches url line) raw = true ↔
    raw.trimmed ≠ [] ∧ ¬SetAside url line raw := by
  rw [urlMatches_eq]
  simp [accepts, SetAside, and_assoc]

def returned (url path : Pattern) (line : Units) : List RawMatch :=
  (url.matchAll line).filter (fun raw => raw.trimmed ≠ []) ++
    (path.matchAll line).filter (accepts .path (urlMatches url line))

theorem mem_returned (h : raw ∈ returned url path line) :
    raw ∈ url.matchAll line ++ path.matchAll line ∧ raw.trimmed ≠ [] := by
  rcases mem_append.mp h with h | h <;> obtain ⟨hraw, hkept⟩ := mem_filter.mp h
  · exact ⟨mem_append_left _ hraw, of_decide_eq_true hkept⟩
  · exact ⟨mem_append_right _ hraw, ((accepts_path raw).mp hkept).1⟩

theorem extract_perm : ((extractTerminalLinks url path line).map (·.1)).Perm
    ((returned url path line).map candidate) := by
  refine ((orderBy_perm _ _).map _).trans (.of_eq ?_)
  rw [collectMatches_eq, returned]
  simp only [urlMatches_eq, map_append, map_map]
  rfl

/-- The links of a line are in order and apart. -/
theorem extract_disjoint (url path : Pattern) (line : Units) :
    (extractTerminalLinks url path line).Pairwise fun a b => a.stop ≤ b.start := by
  have hapart : (extractTerminalLinks url path line).Pairwise fun a b =>
      a.stop ≤ b.start ∨ b.stop ≤ a.start := by
    refine (orderBy_perm _ _).symm.pairwise (pairwise_append.mpr
      ⟨(collectMatches_disjoint _ _).imp .inl, (collectMatches_disjoint _ _).imp .inl, ?_⟩) Or.symm
    intro a ha b hb
    rw [collectMatches_eq] at hb
    obtain ⟨raw, hraw, rfl⟩ := mem_map.mp hb
    have haccept := (mem_filter.mp hraw).2
    simp only [accepts, Bool.and_eq_true, Bool.not_eq_true', any_eq_false] at haccept
    have hclear := haccept.2 a ha
    simp only [overlaps, Bool.and_eq_true, decide_eq_true_eq] at hclear
    change a.stop ≤ (candidate raw).start ∨ (candidate raw).stop ≤ a.start
    omega
  refine (hapart.and (orderedBy_orderBy _ _)).imp_of_mem fun {a b} _ hb h => ?_
  obtain ⟨raw, hraw, hlink⟩ := mem_map.mp (extract_perm.mem_iff.mp (mem_map_of_mem hb))
  have hlt := candidate_lt (mem_returned hraw).2
  rw [hlink] at hlt
  have := h.2
  omega

theorem extract_urls (url path : Pattern) (line : Units) :
    ((extractTerminalLinks url path line).filter (·.kind = .url)).map (·.1) =
    matchTerminalUrls url line := by
  have hurls : (urlMatches url line).filter (·.kind = .url) = urlMatches url line := by
    rw [urlMatches_eq]
    exact filter_eq_self.mpr (forall_mem_map.mpr fun _ _ => rfl)
  have hpaths : (collectMatches .path (path.matchAll line) (urlMatches url line)).filter
      (·.kind = .url) = [] := by
    rw [collectMatches_eq]
    exact filter_eq_nil_iff.mpr (forall_mem_map.mpr fun _ _ => by simp)
  have hsorted : OrderedBy (fun link => (link.start : ℤ)) (urlMatches url line) := by
    rw [urlMatches_eq]
    exact pairwise_map.mpr (((url.apart line).filter _).imp fun hle =>
      Int.ofNat_le.mpr ((Nat.le_add_right _ _).trans hle))
  rw [extractTerminalLinks, ← orderBy_filter, filter_append, hurls, hpaths, append_nil,
    orderBy_of_sorted hsorted, urlMatches_eq, matchTerminalUrls_eq, map_map]
  rfl

theorem forall_orderly : (∀ raw ∈ returned url path line, Orderly raw.text) ↔
    (∀ raw ∈ url.matchAll line, Orderly raw.text) ∧
      ∀ raw ∈ path.matchAll line, SetAside url line raw ∨ Orderly raw.text := by
  have hempty : ∀ raw : RawMatch, raw.trimmed = [] → Orderly raw.text := fun raw hempty =>
    (orderly_iff _).mpr (congrArg (fun text => trimmable text.reverse) hempty)
  simp only [returned, forall_mem_append, mem_filter, decide_eq_true_eq, accepts_path, and_imp]
  refine and_congr (forall₂_congr fun raw _ => ?_) (forall₂_congr fun raw _ => ?_)
  · have := hempty raw
    tauto
  · have := hempty raw
    tauto

/-- The links are trimmed completely exactly when the end of every raw match
that becomes one meets the loops in their order. -/
theorem links_trimmed_iff (url path : Pattern) (line : Units) : LinksTrimmed url path line ↔
    (∀ raw ∈ url.matchAll line, Orderly raw.text) ∧
      ∀ raw ∈ path.matchAll line, SetAside url line raw ∨ Orderly raw.text := by
  have hlinks := detected_iff (fun raw hraw => (mem_append.mp hraw).elim (url.slices line raw)
    (path.slices line raw)) (fun raw => mem_returned) extract_perm
      (pairwise_map.mpr (extract_disjoint url path line))
  have hdisjoint : (matchTerminalUrls url line).Pairwise fun a b => a.stop ≤ b.start := by
    rw [← extract_urls url path line]
    exact pairwise_map.mpr ((extract_disjoint url path line).filter _)
  have hurls : Detected line (url.matchAll line) (matchTerminalUrls url line) ↔ _ :=
    detected_iff (url.slices line)
      (fun raw hraw => ⟨(mem_filter.mp hraw).1, of_decide_eq_true (mem_filter.mp hraw).2⟩)
      (.of_eq matchTerminalUrls_eq) hdisjoint
  rw [← forall_orderly]
  exact ⟨fun h => hlinks.mp h.links, fun h =>
    ⟨hurls.mpr fun raw hraw => h raw (mem_append_left _ hraw), hlinks.mpr h,
      extract_urls url path line⟩⟩

/-- A pattern that matches one line, from an index to its end. -/
def Pattern.only (text : Units) (index : Nat) : Pattern where
  matchAll line := if line = text then [⟨index, line.drop index⟩] else []
  slices line raw hraw := by
    split at hraw
    · obtain rfl := mem_singleton.mp hraw
      exact take_length.symm
    · cases hraw
  apart line := by
    split
    · exact pairwise_singleton _ _
    · exact .nil

/-- The bracket goes and the full stop before it stays. -/
theorem stop_stays : ¬∀ (url path : Pattern) (line : Units), LinksTrimmed url path line := by
  intro hclaim
  have hlinks := hclaim (.only (units "http://x.)") 0) (.only (units "http://x.)") 3)
    (units "http://x.)")
  exact absurd (hlinks.urls.trimmed (candidate ⟨0, units "http://x.)"⟩) (by decide)) (by decide)

end Links

end Yaade.Panels.Links
