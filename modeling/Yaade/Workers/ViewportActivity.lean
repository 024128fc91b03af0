import Mathlib.Tactic

/-!
The policy that counts the rows a reader of the scrollback has not seen, and a
terminal that appends rows, loses rows to retention, reflows and switches its
screen between two observations.
-/

namespace Yaade.Workers.ViewportActivity

open List Option

def maxSafeInteger : Int := 2 ^ 53 - 1

inductive Mode
  | live
  | inspecting
  | paused
deriving DecidableEq

structure Activity where
  mode : Mode
  unseenRows : Option Int
deriving DecidableEq

structure Facts where
  viewportActive : Bool
  totalRows : Option Int
  viewportOffset : Option Int
  geometryGeneration : Nat
  contentGeneration : Nat
  alternateScreen : Bool

def liveActivity : Activity := ⟨.live, some 0⟩

def normalizedCount (value : Option Int) : Option Int :=
  value.filter fun count => 0 ≤ count && count ≤ maxSafeInteger

def saturatedAdd (left right : Int) : Int :=
  min maxSafeInteger (left + right)

def Facts.normalized (facts : Facts) : Facts :=
  { facts with
    totalRows := normalizedCount facts.totalRows
    viewportOffset := normalizedCount facts.viewportOffset }

def retained (previous next : Facts) : Bool :=
  next.contentGeneration != previous.contentGeneration &&
    match next.viewportOffset, previous.viewportOffset with
    | some offset, some before => decide (offset < before) || (offset == 0 && before == 0)
    | _, _ => false

def Activity.sample (activity : Activity) (previous : Option Facts) (next : Facts) : Activity :=
  if next.alternateScreen || next.viewportActive then liveActivity
  else if activity.mode = .live then ⟨.inspecting, some 0⟩
  else match previous with
    | none => activity
    | some previous =>
      if next.geometryGeneration ≠ previous.geometryGeneration then
        { activity with unseenRows := none }
      else match previous.totalRows, next.totalRows with
        | some previousTotal, some nextTotal =>
          if 0 < nextTotal - previousTotal then
            { activity with
              unseenRows := activity.unseenRows.map (saturatedAdd · (nextTotal - previousTotal)) }
          else if nextTotal - previousTotal < 0 then { activity with unseenRows := none }
          else if retained previous next then { activity with unseenRows := none }
          else activity
        | _, _ =>
          if next.contentGeneration ≠ previous.contentGeneration then
            { activity with unseenRows := none }
          else activity

structure Policy where
  activity : Activity := liveActivity
  previousFacts : Option Facts := none

namespace Policy

variable (policy : Policy)

def observe (facts : Facts) : Policy :=
  ⟨policy.activity.sample policy.previousFacts facts.normalized, some facts.normalized⟩

def pause : Policy :=
  if policy.activity.mode = .live then policy
  else { policy with activity := { policy.activity with mode := .paused } }

def resume : Policy :=
  if policy.activity.mode ≠ .paused then policy
  else { policy with activity := { policy.activity with mode := .inspecting } }

def jumpToLive : Policy :=
  { policy with activity := liveActivity }

end Policy

/-! ## The terminal that is observed -/

/-- The primary screen with its scrollback, and the rows it ever appended and evicted. -/
structure Terminal where
  total : Nat
  offset : Nat
  viewportActive : Bool
  alternateScreen : Bool
  alternateRows : Nat
  scrollbar : Bool
  geometryGeneration : Nat
  contentGeneration : Nat
  appended : Nat
  evicted : Nat

inductive Change
  | append (rows : Nat)
  | evict (rows : Nat)
  | redraw
  | scroll (offset : Nat) (active : Bool)
  | reflow (total offset : Nat)
  | alternate (on : Bool)
  | scrollbar (known : Bool)

def Terminal.apply (terminal : Terminal) : Change → Terminal
  | .append rows =>
    if terminal.alternateScreen then
      { terminal with contentGeneration := terminal.contentGeneration + 1 }
    else
      { terminal with
        total := terminal.total + rows
        offset := if terminal.viewportActive then terminal.offset + rows else terminal.offset
        contentGeneration := terminal.contentGeneration + 1
        appended := terminal.appended + rows }
  | .evict rows =>
    -- A viewport that is pinned to its content moves up with it.
    { terminal with
      total := terminal.total - rows
      offset := terminal.offset - rows
      contentGeneration := terminal.contentGeneration + 1
      evicted := terminal.evicted + min rows terminal.total }
  | .redraw => { terminal with contentGeneration := terminal.contentGeneration + 1 }
  | .scroll offset active => { terminal with offset := offset, viewportActive := active }
  | .reflow total offset =>
    { terminal with
      total := total
      offset := offset
      geometryGeneration := terminal.geometryGeneration + 1 }
  | .alternate on => { terminal with alternateScreen := on }
  | .scrollbar known => { terminal with scrollbar := known }

def Terminal.facts (terminal : Terminal) : Facts where
  viewportActive := terminal.viewportActive
  totalRows :=
    if terminal.scrollbar then
      some (if terminal.alternateScreen then terminal.alternateRows else terminal.total)
    else none
  viewportOffset :=
    if terminal.scrollbar then
      some (if terminal.alternateScreen then 0 else terminal.offset)
    else none
  geometryGeneration := terminal.geometryGeneration
  contentGeneration := terminal.contentGeneration
  alternateScreen := terminal.alternateScreen

/-! ## Runs -/

/-- `left` are the rows appended when the mode left live, `seen` and `gone` those
appended and evicted by the last observation. -/
structure World where
  terminal : Terminal
  policy : Policy
  left : Nat
  seen : Nat
  gone : Nat

inductive Action
  | change (change : Change)
  | observe
  | pause
  | resume
  | jumpToLive

namespace World

def step (world : World) : Action → World
  | .change change => { world with terminal := world.terminal.apply change }
  | .observe =>
    let policy := world.policy.observe world.terminal.facts
    { world with
      policy := policy
      left :=
        if world.policy.activity.mode = .live ∧ policy.activity.mode ≠ .live then
          world.terminal.appended
        else world.left
      seen := world.terminal.appended
      gone := world.terminal.evicted }
  | .pause => { world with policy := world.policy.pause }
  | .resume => { world with policy := world.policy.resume }
  | .jumpToLive => { world with policy := world.policy.jumpToLive }

def start (terminal : Terminal) : World :=
  ⟨terminal, {}, terminal.appended, terminal.appended, terminal.evicted⟩

/-- The count is the number of rows that were appended since the mode left live. -/
def Exact (world : World) : Prop :=
  world.policy.activity.mode ≠ .live → ∀ count, world.policy.activity.unseenRows = some count →
    (count < maxSafeInteger → count = (world.seen : Int) - world.left) ∧
      (maxSafeInteger ≤ count → maxSafeInteger ≤ (world.seen : Int) - world.left)

/-- No row was evicted since the last observation, unless this one cannot count on. -/
def Unhidden (world : World) : Prop :=
  let next := world.terminal.facts.normalized
  world.terminal.evicted = world.gone ∨ world.policy.activity.mode = .live ∨
    world.policy.activity.unseenRows = none ∨
    world.policy.activity.unseenRows = some maxSafeInteger ∨
    next.alternateScreen = true ∨ next.viewportActive = true ∨
    ∀ previous ∈ world.policy.previousFacts,
      next.geometryGeneration ≠ previous.geometryGeneration ∨
      ∀ before ∈ previous.totalRows, ∀ total ∈ next.totalRows,
        total < before ∨ total = before ∧ retained previous next = true

inductive Reaches : World → World → Prop
  | refl {world : World} : Reaches world world
  | step {world middle : World} (action : Action) (before : Reaches world middle)
      (unhidden : action = .observe → middle.Unhidden) : Reaches world (middle.step action)

/-! ## The invariant -/

section Invariant

variable {world : World} {terminal : Terminal} {previous : Facts} {seen gone : Nat}

/-- What the last facts say of the terminal as it has gone on since. -/
structure Follows (terminal : Terminal) (seen gone : Nat) (previous : Facts) : Prop where
  layout : previous.geometryGeneration ≤ terminal.geometryGeneration
  content : previous.contentGeneration ≤ terminal.contentGeneration
  still : previous.contentGeneration = terminal.contentGeneration → terminal.appended = seen
  rows : previous.geometryGeneration = terminal.geometryGeneration → ∀ total ∈ previous.totalRows,
    (terminal.total : Int) + terminal.evicted + seen = total + gone + terminal.appended

structure Tracked (world : World) : Prop where
  order : world.left ≤ world.seen ∧ world.seen ≤ world.terminal.appended
  exact : world.policy.activity.mode ≠ .live → ∀ count,
    world.policy.activity.unseenRows = some count →
      count = min maxSafeInteger ((world.seen : Int) - world.left)
  follows : world.policy.activity.mode ≠ .live →
    ∃ previous, world.policy.previousFacts = some previous ∧
      Follows world.terminal world.seen world.gone previous

theorem normalizedCount_mem {value : Option Int} {count : Int} (h : count ∈ normalizedCount value) :
    value = some count := by
  unfold normalizedCount at h
  rw [mem_def, filter_eq_some_iff] at h
  exact h.1

theorem tracked_start : Tracked (start terminal) :=
  ⟨⟨le_rfl, le_rfl⟩, fun h => absurd rfl h, fun h => absurd rfl h⟩

theorem Follows.apply (h : Follows terminal seen gone previous) (change : Change) :
    Follows (terminal.apply change) seen gone previous := by
  obtain ⟨hlayout, hcontent, hstill, hrows⟩ := h
  cases change with
  | append rows =>
    simp only [Terminal.apply]
    split
    · exact ⟨hlayout, Nat.le_succ_of_le hcontent, fun h => absurd h (by simp; omega), hrows⟩
    refine ⟨hlayout, Nat.le_succ_of_le hcontent, fun h => absurd h (by simp; omega), ?_⟩
    intro hsame total htotal
    have hall := hrows hsame total htotal
    simp only at hall ⊢
    omega
  | evict rows =>
    refine ⟨hlayout, Nat.le_succ_of_le hcontent, fun h => ?_, ?_⟩
    · simp only [Terminal.apply] at h
      omega
    · intro hsame total htotal
      have hall := hrows hsame total htotal
      simp only [Terminal.apply] at hall ⊢
      omega
  | redraw =>
    refine ⟨hlayout, Nat.le_succ_of_le hcontent, fun h => ?_, hrows⟩
    simp only [Terminal.apply] at h
    omega
  | scroll | alternate | scrollbar => exact ⟨hlayout, hcontent, hstill, hrows⟩
  | reflow total offset =>
    refine ⟨Nat.le_succ_of_le hlayout, hcontent, hstill, fun h => ?_⟩
    simp only [Terminal.apply] at h
    omega

theorem Tracked.change (h : Tracked world) (change : Change) :
    Tracked (world.step (.change change)) := by
  refine ⟨⟨h.order.1, h.order.2.trans ?_⟩, h.exact, fun hmode => ?_⟩
  · cases change with
    | append rows =>
      simp only [World.step, Terminal.apply]
      split
      · exact le_rfl
      · exact Nat.le_add_right _ _
    | _ => exact le_rfl
  · obtain ⟨previous, hprevious, hfollows⟩ := h.follows hmode
    exact ⟨previous, hprevious, hfollows.apply change⟩

theorem follows_facts (hscreen : terminal.alternateScreen = false) :
    Follows terminal terminal.appended terminal.evicted terminal.facts.normalized := by
  refine ⟨le_rfl, le_rfl, fun _ => rfl, fun _ total htotal => ?_⟩
  have hfacts : terminal.facts.totalRows = some total := normalizedCount_mem htotal
  simp only [Terminal.facts, hscreen, ite_none_right_eq_some, Option.some.injEq] at hfacts
  rw [← hfacts.2]
  rfl

/-- One observation that compares two totals, or cannot. -/
theorem sample_exact (h : Tracked world) (hmode : world.policy.activity.mode ≠ .live)
    (hunhidden : world.Unhidden) (hscreen : world.terminal.alternateScreen = false)
    (hactive : world.terminal.viewportActive = false) {count : Int}
    (hcount : (world.policy.activity.sample world.policy.previousFacts
      world.terminal.facts.normalized).unseenRows = some count) :
    count = min maxSafeInteger ((world.terminal.appended : Int) - world.left) := by
  obtain ⟨previous, hprevious, hfollows⟩ := h.follows hmode
  have horder := h.order
  have hexact := h.exact hmode
  set next := world.terminal.facts.normalized with hnext
  have hlive : (next.alternateScreen || next.viewportActive) = false := by
    simp [hnext, Facts.normalized, Terminal.facts, hscreen, hactive]
  have hhidden := hunhidden
  simp only [Unhidden, ← hnext, hmode, false_or, hprevious, mem_def, Option.some.injEq,
    forall_eq', (Bool.or_eq_false_iff.mp hlive).1, (Bool.or_eq_false_iff.mp hlive).2,
    Bool.false_eq_true] at hhidden
  unfold Activity.sample at hcount
  rw [if_neg (by simp [hlive]), if_neg hmode, hprevious] at hcount
  simp only at hcount
  split at hcount
  · cases hcount
  rename_i hlayout
  rw [not_not] at hlayout
  split at hcount
  · rename_i before total hbefore htotal
    have hrows := hfollows.rows hlayout.symm before hbefore
    have hsame : (world.terminal.total : Int) = total := by
      have hfresh := (follows_facts hscreen).rows rfl total htotal
      omega
    simp only [hbefore, htotal, Option.some.injEq, forall_eq', hlayout, ne_eq, not_true,
      false_or] at hhidden
    split at hcount
    · obtain ⟨old, hold, rfl⟩ := map_eq_some_iff.mp hcount
      have hbound := hexact old hold
      simp only [hold, Option.some.injEq, reduceCtorEq, false_or] at hhidden
      unfold saturatedAdd
      rcases hhidden with hkept | hmax | hfell | hstays <;> omega
    split at hcount
    · cases hcount
    split at hcount
    · cases hcount
    rename_i hretained
    have hbound := hexact count hcount
    simp only [hcount, Option.some.injEq, reduceCtorEq, false_or, hretained, and_false,
      or_false] at hhidden
    rcases hhidden with hkept | hmax | hfell <;> omega
  · split at hcount
    · cases hcount
    rename_i hcontent
    rw [hfollows.still (not_not.mp hcontent).symm]
    exact hexact count hcount

theorem Tracked.observe (h : Tracked world) (hunhidden : world.Unhidden) :
    Tracked (world.step .observe) := by
  have hstays : ∀ hlive : ¬(world.step .observe).policy.activity.mode = .live,
      world.terminal.alternateScreen = false ∧ world.terminal.viewportActive = false := by
    intro hlive
    rw [← Bool.or_eq_false_iff, Bool.eq_false_iff]
    intro hcont
    exact hlive (congrArg Activity.mode (if_pos hcont))
  refine ⟨?_, fun hlive count hcount => ?_, fun hlive => ?_⟩
  · refine ⟨?_, le_rfl⟩
    simp only [World.step]
    split
    · exact le_rfl
    · exact h.order.1.trans h.order.2
  · obtain ⟨hscreen, hactive⟩ := hstays hlive
    by_cases hmode : world.policy.activity.mode = .live
    · have hsample : (world.step .observe).policy.activity = ⟨.inspecting, some 0⟩ := by
        refine (if_neg ?_).trans (if_pos hmode)
        simp [Facts.normalized, Terminal.facts, hscreen, hactive]
      rw [hsample] at hcount
      cases hcount
      have hleft : (world.step .observe).left = world.terminal.appended := if_pos ⟨hmode, hlive⟩
      rw [hleft, World.step, Int.sub_self]
      decide
    · have hleft : (world.step .observe).left = world.left := if_neg fun habs => hmode habs.1
      rw [hleft]
      exact sample_exact h hmode hunhidden hscreen hactive hcount
  · exact ⟨_, rfl, follows_facts (hstays hlive).1⟩

theorem Tracked.step (h : Tracked world) {action : Action}
    (hunhidden : action = .observe → world.Unhidden) : Tracked (world.step action) := by
  cases action with
  | change change => exact h.change change
  | observe => exact h.observe (hunhidden rfl)
  | pause =>
    simp only [World.step, Policy.pause]
    split
    · exact h
    · rename_i hmode
      exact ⟨h.order, fun _ => h.exact hmode, fun _ => h.follows hmode⟩
  | resume =>
    simp only [World.step, Policy.resume]
    split
    · exact h
    rename_i hmode
    have hlive : world.policy.activity.mode ≠ .live := by
      rw [not_not.mp hmode]
      decide
    exact ⟨h.order, fun _ => h.exact hlive, fun _ => h.follows hlive⟩
  | jumpToLive => exact ⟨h.order, fun habs => absurd rfl habs, fun habs => absurd rfl habs⟩

theorem Reaches.tracked (h : Reaches (start terminal) world) : Tracked world := by
  induction h with
  | refl => exact tracked_start
  | step action _ hunhidden ih => exact ih.step hunhidden

/-- No count is false in a run whose observations all count what was appended. -/
theorem unseenRows_exact (h : Reaches (start terminal) world) : world.Exact := by
  intro hmode count hcount
  have hexact := h.tracked.exact hmode count hcount
  omega

end Invariant

section Runs

def sampleTerminal : Terminal := ⟨100, 60, false, false, 24, true, 0, 0, 0, 0⟩

/-- Ten rows are appended between two observations of a reader who has scrolled up. -/
theorem unseenRows_ten : ∃ world, Reaches (start sampleTerminal) world ∧
    world.policy.activity = ⟨.inspecting, some 10⟩ ∧ world.Exact := by
  have hfirst : Reaches (start sampleTerminal) _ := .step .observe .refl fun _ => .inl rfl
  have hrun := (hfirst.step (.change (.append 10)) nofun).step .observe fun _ => .inl rfl
  exact ⟨_, hrun, by decide, unseenRows_exact hrun⟩

/-- Retention takes five rows while ten are appended: five are counted. -/
theorem unseenRows_hidden : ¬∀ (terminal : Terminal) (actions : List Action),
    (actions.foldl World.step (start terminal)).Exact := by
  intro hclaim
  have hexact := (hclaim sampleTerminal
    [.observe, .change (.append 10), .change (.evict 5), .observe] (by decide) 5 (by decide)).1
    (by decide)
  revert hexact
  decide

end Runs

end World

end Yaade.Workers.ViewportActivity
