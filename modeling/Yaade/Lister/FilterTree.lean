import Yaade.Library.CaseMapping
import Yaade.Library.Outline

/-!
The local filter of the lister: the fuzzy match of a row, and the filter of a
flattened tree.
-/

namespace Yaade.Lister

open Yaade.Library Outline Utf16 List

/-! ## Fuzzy match -/

def isBoundary (unit : UInt16) : Bool := [47, 45, 95, 46, 32].contains unit

/-- The walk over the text from index `ti` on, with the query that is left. -/
def subsequenceLoop : Units → Units → Nat → Option UInt16 → Option Nat → Int → Option Int
  | _, [], _, _, _, score => some score
  | [], _ :: _, _, _, _, _ => none
  | unit :: text, wanted :: query, ti, prev, last, score =>
    if unit ≠ wanted then subsequenceLoop text (wanted :: query) (ti + 1) (some unit) last score
    else
      let score := score + (last.map fun last => (ti : Int) - last).getD 0
      let score := if ti = 0 ∨ prev.any isBoundary then score - 1 else score
      subsequenceLoop text query (ti + 1) (some unit) (some ti) score

def subsequenceScore (query text : Units) : Option Int :=
  (subsequenceLoop text query 0 none none 0).map (· + min 64 ((text.length : Int) - query.length))

def indexOf (term : Units) : Units → Option Nat
  | [] => if term = [] then some 0 else none
  | unit :: haystack =>
    if term.isPrefixOf (unit :: haystack) then some 0 else (indexOf term haystack).map (· + 1)

def scoreTerm (term haystack : Units) : Option Int :=
  match indexOf term haystack with
  | some idx =>
    let score : Int := idx
    let score := if term.isPrefixOf haystack then score - 100 else score
    some (if haystack = term then score - 200 else score)
  | none => subsequenceScore term haystack

def fuzzyScore (m : CaseMapping) (query searchText : Units) : Option Int :=
  let trimmed := m.lower (trim query)
  if trimmed = [] then some 0
  else
    let hay := m.lower searchText
    (words trimmed).foldlM (fun total term => (scoreTerm term hay).map (total + ·)) 0

theorem fuzzyScore_trim {m : CaseMapping} (query searchText : Units) :
    fuzzyScore m (trim query) searchText = fuzzyScore m query searchText := by
  unfold fuzzyScore
  rw [trim_trim]

theorem fuzzyScore_blank {m : CaseMapping} {query : Units} (h : trim query = [])
    (searchText : Units) : fuzzyScore m query searchText = some 0 := by
  unfold fuzzyScore
  rw [h, m.lower_ascii [] rfl]
  rfl

/-! ## Filter -/

structure TreeFilterRow where
  searchText : Units
  depth : Nat
  expanded : Bool
  isBranch : Bool

section Passes

variable (depth : Nat → Nat) (parent : Nat → Option Nat)

/-- `depthStack` after row `i` is put in: the row at its depth, and nothing deeper. -/
def place (depthStack : List (Option Nat)) (depth i : Nat) : List (Option Nat) :=
  depthStack.take depth ++ List.replicate (depth - depthStack.length) none ++ [some i]

/-- `depthStack` when the first pass reaches row `i`. -/
def depthStack : Nat → List (Option Nat)
  | 0 => []
  | i + 1 => place (depthStack i) (depth i) i

def parentAt (i : Nat) : Option Nat :=
  if 0 < depth i then ((depthStack depth i)[depth i - 1]?).join else none

def keepParent (i : Nat) (keep : Nat → Bool) : Nat → Bool :=
  if keep i then
    match parent i with
    | some parentIndex => Function.update keep parentIndex true
    | none => keep
  else keep

/-- The reverse pass, from the row before `i` to the first. -/
def keepParents : Nat → (Nat → Bool) → Nat → Bool
  | 0, keep => keep
  | i + 1, keep => keepParents i (keepParent parent i keep)

def reveal (rowReveals : Bool) (rowDepth : Nat) (below : Option Nat) : Option Nat :=
  if rowReveals then some (below.elim rowDepth (min · rowDepth)) else below

/-- `revealBelowDepth` in row `i`, once the row has closed what it is not under;
`reveals` says of a row whether it is a matching branch that is expanded. -/
def revealBelowDepth (reveals : Nat → Bool) : Nat → Option Nat
  | 0 => none
  | i + 1 =>
    (reveal (reveals i) (depth i) (revealBelowDepth reveals i)).filter fun d => ¬ depth (i + 1) ≤ d

end Passes

section Rows

variable (m : CaseMapping) (query : Units) (rows : List TreeFilterRow)

def depthOf (i : Nat) : Nat := (rows[i]?.map (·.depth)).getD 0

def matchOf (i : Nat) : Bool :=
  rows[i]?.any fun row => (fuzzyScore m query row.searchText).isSome

def openBranch (i : Nat) : Bool := rows[i]?.any fun row => row.isBranch && row.expanded

def keepOf (i : Nat) : Bool :=
  keepParents (parentAt (depthOf rows)) rows.length (matchOf m query rows) i ||
    (revealBelowDepth (depthOf rows) (fun i => matchOf m query rows i && openBranch rows i) i).isSome

end Rows

def filterTreeRows {α : Type} (m : CaseMapping) (row : α → TreeFilterRow) (query : Units)
    (rows : List α) : List α :=
  let trimmed := trim query
  if trimmed = [] ∨ rows.length = 0 then rows
  else (rows.zipIdx.filter fun entry => keepOf m trimmed (rows.map row) entry.2).map (·.1)

/-- What the filter is for: a row stays when it matches, is above a match, or is
under a matching branch that is expanded. -/
def Kept (m : CaseMapping) (query : Units) (rows : List TreeFilterRow) (i : Nat) : Prop :=
  matchOf m query rows i ∨ (∃ j < rows.length, matchOf m query rows j ∧ Above (depthOf rows) i j) ∨
    ∃ j < i, matchOf m query rows j ∧ openBranch rows j ∧ Above (depthOf rows) j i

instance {m : CaseMapping} {query : Units} {rows : List TreeFilterRow} {i : Nat} :
    Decidable (Kept m query rows i) := inferInstanceAs (Decidable (_ ∨ _))

/-! ## Parents -/

section Correct

variable {depth : Nat → Nat} {parent : Nat → Option Nat} {keep reveals : Nat → Bool}
  {stack : List (Option Nat)} {i j l n p : Nat}

theorem getElem?_place (stack : List (Option Nat)) (depth i l : Nat) :
    ((place stack depth i)[l]?).join =
      if l = depth then some i else if l < depth then (stack[l]?).join else none := by
  have hlength : (stack.take depth ++ List.replicate (depth - stack.length) none).length =
      depth := by
    rw [length_append, length_take, length_replicate]
    omega
  unfold place
  rcases lt_trichotomy l depth with hl | rfl | hl
  · rw [if_neg hl.ne, if_pos hl, getElem?_append_left (by omega)]
    by_cases hin : l < stack.length
    · rw [getElem?_append_left (by simp [hl, hin]), getElem?_take_of_lt hl]
    rw [getElem?_append_right (by simp; omega), getElem?_replicate,
      getElem?_eq_none (not_lt.mp hin)]
    split <;> rfl
  · rw [if_pos rfl, getElem?_append_right hlength.le, hlength, Nat.sub_self]
    rfl
  · rw [if_neg hl.ne', if_neg hl.not_gt, getElem?_eq_none]
    · rfl
    · rw [length_append, hlength]
      exact hl

/-- The stack holds, at each depth, the row that no row after it has closed. -/
theorem depthStack_iff : ((depthStack depth i)[l]?).join = some p ↔
    p < i ∧ depth p = l ∧ ∀ k < i, p < k → l < depth k := by
  induction i with
  | zero => simp [depthStack]
  | succ i ih =>
    rw [depthStack, getElem?_place]
    rcases lt_trichotomy l (depth i) with hl | rfl | hl
    · rw [if_neg hl.ne, if_pos hl, ih]
      constructor
      · rintro ⟨hp, hlevel, hopen⟩
        refine ⟨by omega, hlevel, fun k hk hpk => ?_⟩
        rcases Nat.lt_succ_iff_lt_or_eq.mp hk with hk | rfl
        · exact hopen k hk hpk
        · exact hl
      · rintro ⟨hp, hlevel, hopen⟩
        have hne : p ≠ i := by rintro rfl; omega
        exact ⟨by omega, hlevel, fun k hk => hopen k (by omega)⟩
    · rw [if_pos rfl]
      constructor
      · rintro ⟨⟩
        exact ⟨Nat.lt_succ_self _, rfl, fun k hk hpk => by omega⟩
      · rintro ⟨hp, -, hopen⟩
        have hlast := hopen i (Nat.lt_succ_self i)
        exact congrArg some (by omega)
    · rw [if_neg hl.ne', if_neg hl.not_gt]
      constructor
      · nofun
      · rintro ⟨hp, hlevel, hopen⟩
        have hlast := hopen i (Nat.lt_succ_self i)
        have hne : p ≠ i := by rintro rfl; omega
        omega

theorem parentAt_iff : parentAt depth i = some p ↔ ParentOf depth p i := by
  unfold parentAt
  split
  · rename_i hlevel
    rw [depthStack_iff]
    constructor
    · rintro ⟨hp, hdepth, hopen⟩
      refine ⟨⟨hp, fun k hk hpk => ?_⟩, by omega⟩
      rcases hk.eq_or_lt with rfl | hk
      · omega
      · exact hdepth ▸ hopen k hk hpk
    · rintro ⟨⟨hp, hopen⟩, hdepth⟩
      refine ⟨hp, by omega, fun k hk hpk => ?_⟩
      have := hopen k hk.le hpk
      omega
  · constructor
    · nofun
    · rintro ⟨-, hdepth⟩
      omega

/-! ## Rows above a match -/

theorem keepParent_iff :
    keepParent parent i keep j = true ↔ keep j = true ∨ keep i = true ∧ parent i = some j := by
  unfold keepParent
  split
  · rename_i hkeep
    cases parent i with
    | none => simp
    | some p =>
      change Function.update keep p true j = true ↔ _
      rw [Function.update_apply]
      split
      · simp [*]
      · rename_i hne
        simp [Ne.symm hne]
  · simp [*]

theorem keepParents_of_keep (h : keep j = true) : keepParents parent n keep j = true := by
  induction n generalizing keep with
  | zero => exact h
  | succ i ih => exact ih (keepParent_iff.mpr (.inl h))

theorem keepParents_sound {P : Nat → Prop} (hup : ∀ i p, P i → parent i = some p → P p)
    (hkeep : ∀ i, keep i = true → P i) (h : keepParents parent n keep j = true) : P j := by
  induction n generalizing keep with
  | zero => exact hkeep j h
  | succ i ih =>
    refine ih (fun k hk => ?_) h
    rcases keepParent_iff.mp hk with hk | ⟨hi, hp⟩
    · exact hkeep k hk
    · exact hup i k (hkeep i hi) hp

section Before

variable (hparent : ∀ i p, parent i = some p → p < i)
include hparent

/-- The pass leaves the rows it has passed as they are. -/
theorem keep_of_keepParents (hn : n ≤ j) (h : keepParents parent n keep j = true) :
    keep j = true := by
  induction n generalizing keep with
  | zero => exact h
  | succ i ih =>
    rcases keepParent_iff.mp (ih (by omega) h) with h | ⟨-, hp⟩
    · exact h
    · have := hparent i j hp
      omega

theorem keepParents_parent (hi : i < n) (h : keepParents parent n keep i = true)
    (hp : parent i = some p) : keepParents parent n keep p = true := by
  induction n generalizing keep with
  | zero => omega
  | succ k ih =>
    rcases Nat.lt_succ_iff_lt_or_eq.mp hi with hi | rfl
    · exact ih hi h
    change keepParents parent i (keepParent parent i keep) _ = true
    refine keepParents_of_keep ?_
    refine keepParent_iff.mpr (.inr ⟨?_, hp⟩)
    rcases keepParent_iff.mp (keep_of_keepParents hparent le_rfl h) with h | ⟨h, -⟩
    · exact h
    · exact h

end Before

theorem keepParents_iff (houtline : Outline depth n) (hkeep : ∀ j, keep j = true → j < n) :
    keepParents (parentAt depth) n keep i = true ↔
      keep i = true ∨ ∃ j < n, keep j = true ∧ Above depth i j := by
  have hparent : ∀ i p, parentAt depth i = some p → p < i := fun i p hp =>
    (parentAt_iff.mp hp).before
  constructor
  · refine keepParents_sound
      (P := fun i => keep i = true ∨ ∃ j < n, keep j = true ∧ Above depth i j)
      (fun i p hi hp => ?_) fun i hi => .inl hi
    have hpi := (parentAt_iff.mp hp).toAbove
    rcases hi with hi | ⟨j, hj, hmatch, hij⟩
    · exact .inr ⟨i, hkeep i hi, hi, hpi⟩
    · exact .inr ⟨j, hj, hmatch, hpi.trans hij⟩
  · rintro (hi | ⟨j, hj, hmatch, hij⟩)
    · exact keepParents_of_keep hi
    · -- climb from the match, parent by parent
      have hclimb : ∀ j < n, keepParents (parentAt depth) n keep j = true → Above depth i j →
          keepParents (parentAt depth) n keep i = true := by
        intro j
        induction j using Nat.strong_induction_on with
        | _ j ih =>
          intro hj hkept hij
          obtain ⟨p, hp, hip⟩ := hij.parent houtline hj.le
          have hnext := keepParents_parent hparent hj hkept (parentAt_iff.mpr hp)
          rcases hip with rfl | hip
          · exact hnext
          · exact ih p hp.before (hp.before.trans hj) hnext hip
      exact hclimb j hj (keepParents_of_keep hmatch) hij

/-! ## Rows under an expanded match -/

/-- What is revealed in row `i` is what is under the shallowest of the branches
above it that reveal. -/
structure Reveals (depth : Nat → Nat) (reveals : Nat → Bool) (i : Nat) (below : Option Nat) :
    Prop where
  sound : ∀ d, below = some d → ∃ a, reveals a = true ∧ depth a = d ∧ Above depth a i
  complete : ∀ a, reveals a = true → Above depth a i → ∃ d ≤ depth a, below = some d

section Step

variable {below : Option Nat} {d a : Nat} (h : Reveals depth reveals i below)
include h

theorem reveal_sound (hd : reveal (reveals i) (depth i) below = some d) :
    ∃ a, reveals a = true ∧ depth a = d ∧ (a = i ∨ Above depth a i) := by
  unfold reveal at hd
  split at hd
  · rename_i hreveals
    cases hbelow : below with
    | none => exact ⟨i, hreveals, by simpa [hbelow] using hd, .inl rfl⟩
    | some e =>
      obtain ⟨a, ha, rfl, hai⟩ := h.sound e hbelow
      have hmin := hai.deeper i le_rfl hai.before
      refine ⟨a, ha, ?_, .inr hai⟩
      simpa [hbelow, min_eq_left hmin.le] using hd
  · obtain ⟨a, ha, hdepth, hai⟩ := h.sound d hd
    exact ⟨a, ha, hdepth, .inr hai⟩

theorem reveal_complete (ha : reveals a = true) (hai : a = i ∨ Above depth a i) :
    ∃ d ≤ depth a, reveal (reveals i) (depth i) below = some d := by
  unfold reveal
  rcases hai with rfl | hai
  · rw [if_pos ha]
    cases below with
    | none => exact ⟨depth a, le_rfl, rfl⟩
    | some e => exact ⟨min e (depth a), min_le_right _ _, rfl⟩
  · obtain ⟨d, hd, hbelow⟩ := h.complete a ha hai
    rw [hbelow]
    split
    · exact ⟨min d (depth i), (min_le_left _ _).trans hd, rfl⟩
    · exact ⟨d, hd, rfl⟩

end Step

theorem revealBelowDepth_reveals : Reveals depth reveals i (revealBelowDepth depth reveals i) := by
  induction i with
  | zero => exact ⟨nofun, fun a _ h => absurd h.before (Nat.not_lt_zero a)⟩
  | succ i ih =>
    constructor
    · intro d hd
      obtain ⟨hd, hdeep⟩ := Option.filter_eq_some_iff.mp hd
      have hnext : d < depth (i + 1) := by simpa using hdeep
      obtain ⟨a, ha, rfl, hai⟩ := reveal_sound ih hd
      exact ⟨a, ha, rfl, above_succ.mpr ⟨hai, hnext⟩⟩
    · intro a ha hai
      obtain ⟨hai, hdeep⟩ := above_succ.mp hai
      obtain ⟨d, hd, hreveal⟩ := reveal_complete ih ha hai
      exact ⟨d, hd, Option.filter_eq_some_iff.mpr ⟨hreveal, by simp; omega⟩⟩

theorem isSome_revealBelowDepth : (revealBelowDepth depth reveals i).isSome = true ↔
    ∃ a, reveals a = true ∧ Above depth a i := by
  have h : Reveals depth reveals i _ := revealBelowDepth_reveals
  constructor
  · intro hsome
    obtain ⟨d, hd⟩ := Option.isSome_iff_exists.mp hsome
    obtain ⟨a, ha, -, hai⟩ := h.sound d hd
    exact ⟨a, ha, hai⟩
  · rintro ⟨a, ha, hai⟩
    obtain ⟨d, -, hd⟩ := h.complete a ha hai
    exact Option.isSome_iff_exists.mpr ⟨d, hd⟩

end Correct

/-! ## The filter and its specification -/

section Rows

variable {α : Type} {m : CaseMapping} {row : α → TreeFilterRow} {query : Units} {rows : List α}
  {entries : List TreeFilterRow} {i : Nat}

theorem lt_of_matchOf (h : matchOf m query entries i = true) : i < entries.length := by
  by_contra hge
  rw [matchOf, getElem?_eq_none (not_lt.mp hge)] at h
  cases h

theorem matchOf_trim : matchOf m (trim query) entries = matchOf m query entries := by
  funext i
  simp only [matchOf, fuzzyScore_trim]

theorem keepOf_iff (h : Outline (depthOf entries) entries.length) :
    keepOf m query entries i = true ↔ Kept m query entries i := by
  have hmatch : ∀ j, matchOf m query entries j = true → j < entries.length := fun j => lt_of_matchOf
  rw [keepOf, Bool.or_eq_true, keepParents_iff h hmatch, isSome_revealBelowDepth, Kept, or_assoc]
  refine or_congr_right (or_congr_right ⟨?_, ?_⟩)
  · rintro ⟨j, hj, hji⟩
    obtain ⟨hj, hopen⟩ := Bool.and_eq_true_iff.mp hj
    exact ⟨j, hji.before, hj, hopen, hji⟩
  · rintro ⟨j, -, hj, hopen, hji⟩
    exact ⟨j, Bool.and_eq_true_iff.mpr ⟨hj, hopen⟩, hji⟩

theorem kept_trim : Kept m (trim query) entries i ↔ Kept m query entries i := by
  unfold Kept
  rw [matchOf_trim]

/-- A blank query matches every row. -/
theorem kept_of_blank (hblank : trim query = []) (hi : i < entries.length) :
    Kept m query entries i := by
  refine .inl ?_
  rw [matchOf, getElem?_eq_getElem hi, Option.any_some, fuzzyScore_blank hblank]
  rfl

/-- The filter returns the rows of its specification, each in its place. -/
theorem filterTreeRows_eq_kept (h : Outline (depthOf (rows.map row)) rows.length) :
    filterTreeRows m row query rows =
      (rows.zipIdx.filter fun entry => Kept m query (rows.map row) entry.2).map (·.1) := by
  have hlength : (rows.map row).length = rows.length := length_map row
  unfold filterTreeRows
  dsimp only
  split
  · rename_i hall
    rw [filter_eq_self.mpr, zipIdx_map_fst]
    intro entry hentry
    have hlt := snd_lt_of_mem_zipIdx hentry
    rcases hall with hblank | hempty
    · exact decide_eq_true (kept_of_blank hblank (by omega))
    · omega
  · congr 1
    refine filter_congr fun entry _ => ?_
    rw [Bool.eq_iff_iff, keepOf_iff (hlength.symm ▸ h), decide_eq_true_eq, kept_trim]

/-- What is above a row that stays, stays: no row is shown without its parents. -/
theorem keepOf_above (h : Outline (depthOf entries) entries.length) {a : Nat}
    (hkeep : keepOf m query entries i = true) (habove : Above (depthOf entries) a i) :
    keepOf m query entries a = true := by
  rw [keepOf_iff h] at hkeep ⊢
  rcases hkeep with hmatch | ⟨j, hj, hmatch, hij⟩ | ⟨j, hji, hmatch, hopen, hbelow⟩
  · exact .inr (.inl ⟨i, lt_of_matchOf hmatch, hmatch, habove⟩)
  · exact .inr (.inl ⟨j, hj, hmatch, habove.trans hij⟩)
  rcases lt_trichotomy a j with haj | rfl | hja
  · have hover : Above (depthOf entries) a j :=
      ⟨haj, fun k hk => habove.deeper k (hk.trans hji.le)⟩
    exact .inr (.inl ⟨j, lt_of_matchOf hmatch, hmatch, hover⟩)
  · exact .inl hmatch
  · have hunder : Above (depthOf entries) j a :=
      ⟨hja, fun k hk => hbelow.deeper k (hk.trans habove.before.le)⟩
    exact .inr (.inr ⟨j, hja, hmatch, hopen, hunder⟩)

def sampleRows : List TreeFilterRow :=
  [⟨units "src", 0, true, true⟩, ⟨units "a.ts", 1, false, false⟩, ⟨units "docs", 1, true, true⟩,
    ⟨units "src.md", 2, false, false⟩, ⟨units "other", 0, false, true⟩]

example : (filterTreeRows .ascii id (units "md") sampleRows).map (·.searchText) =
    [units "src", units "docs", units "src.md"] := by decide

theorem keepOf_above_sample : keepOf .ascii (units "md") sampleRows 0 = true :=
  keepOf_above (i := 3) (by decide) (by decide) (by decide)

theorem filterTreeRows_sample : filterTreeRows .ascii id (units " SRC ") sampleRows =
      (sampleRows.zipIdx.filter fun entry =>
        Kept .ascii (units " SRC ") (sampleRows.map id) entry.2).map (·.1) :=
  filterTreeRows_eq_kept (by decide)

end Rows

end Yaade.Lister
