import Yaade.Access.DeviceAuth

/-!
The limit on failed attempts.
-/

namespace Yaade.Access

open Yaade.Library List Option IndexMap Bool

def Sequential (world : AuthWorld) : AuthAction → Prop
  | .begin _ => world.threads.entries = []
  | .restart => False
  | _ => True

def FailureEntry.resets (key : String) : FailureEntry → Bool
  | .failure _ _ _ => false
  | .success other | .evicted other _ => other = key

def FailureEntry.time? (key : String) : FailureEntry → Option Instant
  | .failure other time _ => if other = key then some time else none
  | _ => none

def FailureEntry.gotPast (key : String) : FailureEntry → Bool
  | .failure other _ passed => other = key && passed
  | _ => false

def sinceReset (key : String) : List Instant → List FailureEntry → List Instant
  | times, [] => times
  | times, entry :: rest =>
    if entry.resets key then sinceReset key [] rest
    else sinceReset key (times ++ (entry.time? key).toList) rest

def recent (now : Instant) (times : List Instant) : Nat :=
  (times.filter fun time => now < time + failureWindow).length

def Call.passedKey : Call → Option String
  | .pairLookup _ | .pairConsume _ _ _ | .pairInsert _ _ => some "pair"
  | .recordFailure key passed => if passed then some key else none
  | .authenticateTake input | .authenticateRow input _ => some input.deviceId
  | _ => none

variable {key : String}

section Log

variable {times : List Instant}

theorem sinceReset_append (first rest : List FailureEntry) :
    sinceReset key times (first ++ rest) = sinceReset key (sinceReset key times first) rest := by
  induction first generalizing times with
  | nil => rfl
  | cons entry first ih =>
    simp only [cons_append, sinceReset]
    split
    · exact ih
    · exact ih

theorem sinceReset_kept {entries : List FailureEntry}
    (h : ∀ entry ∈ entries, entry.resets key = false) :
    sinceReset key times entries = times ++ entries.filterMap (FailureEntry.time? key) := by
  induction entries generalizing times with
  | nil => rw [filterMap_nil, append_nil]; rfl
  | cons entry rest ih =>
    rw [sinceReset, h entry mem_cons_self, if_neg Bool.false_ne_true,
      ih fun other hother => h other (mem_cons_of_mem _ hother), filterMap_cons]
    cases entry.time? key with
    | none => simp
    | some time => simp

theorem recent_mono {now later : Instant} (h : now ≤ later) : recent later times ≤ recent now times := by
  apply List.Sublist.length_le
  apply monotone_filter_right
  intro time htime
  have hlate := of_decide_eq_true htime
  exact decide_eq_true (Nat.lt_of_le_of_lt h hlate)

theorem recent_append (now : Instant) (first rest : List Instant) :
    recent now (first ++ rest) = recent now first + recent now rest := by
  unfold recent
  rw [filter_append, length_append]

theorem recent_le (now : Instant) : recent now times ≤ times.length := length_filter_le _ _

theorem recent_old {now : Instant} (h : ∀ time ∈ times, time + failureWindow ≤ now) :
    recent now times = 0 := by
  unfold recent
  rw [length_eq_zero_iff, filter_eq_nil_iff]
  intro time htime hrecent
  exact absurd (of_decide_eq_true hrecent) (Nat.not_lt_of_le (h time htime))

theorem recent_all {now : Instant} (h : ∀ time ∈ times, now < time + failureWindow) :
    recent now times = times.length := by
  unfold recent
  rw [filter_eq_self.mpr fun time htime => decide_eq_true (h time htime)]

def Limited (log : List FailureEntry) : Prop :=
  ∀ before after key time, log = before ++ .failure key time true :: after →
    recent time (sinceReset key [] before) < failureLimit

theorem Limited.append {log more : List FailureEntry} (h : Limited log)
    (hmore : ∀ before after key time, more = before ++ .failure key time true :: after →
      recent time (sinceReset key [] (log ++ before)) < failureLimit) : Limited (log ++ more) := by
  intro before after key time hsplit
  rcases append_eq_append_iff.mp hsplit with ⟨middle, hbef, hrest⟩ | ⟨middle, hlog, hrest⟩
  · rw [hbef]
    exact hmore middle after key time hrest
  cases middle with
  | nil =>
    rw [append_nil] at hlog
    rw [← hlog, ← append_nil log]
    exact hmore [] after key time hrest.symm
  | cons entry middle =>
    rw [cons_append, List.cons.injEq] at hrest
    obtain ⟨rfl, -⟩ := hrest
    exact h before middle key time hlog

/-- What a window without a reset of the key can hold. -/
theorem Limited.window {log before segment after : List FailureEntry} {key : String}
    (h : Limited log) (hsplit : log = before ++ segment ++ after)
    (hkept : ∀ entry ∈ segment, entry.resets key = false)
    (hwindow : ∀ first ∈ segment.filterMap (FailureEntry.time? key),
      ∀ last ∈ segment.filterMap (FailureEntry.time? key), last < first + failureWindow) :
    (segment.filter (FailureEntry.gotPast key)).length ≤ failureLimit := by
  -- the last failure that got past the check
  rcases eq_nil_or_concat (segment.filter (FailureEntry.gotPast key)) with hnone | ⟨init, last, hlast⟩
  · rw [hnone]
    exact Nat.zero_le _
  obtain ⟨early, late, hsegment, hearly, hlate⟩ := filter_eq_append_iff.mp
    (hlast.trans (concat_eq_append ..))
  obtain ⟨skipped, rest, hsplit', hskipped, hgot, hrest⟩ := filter_eq_cons_iff.mp hlate
  obtain ⟨time, rfl⟩ : ∃ time, last = .failure key time true := by
    cases last with
    | failure other time passed =>
      simp only [FailureEntry.gotPast, and_eq_true, decide_eq_true_eq] at hgot
      exact ⟨time, by rw [hgot.1, hgot.2]⟩
    | success other => cases hgot
    | evicted other keys => cases hgot
  have hcount : (segment.filter (FailureEntry.gotPast key)).length = init.length + 1 := by
    rw [hlast, length_concat]
  have hfew := h (before ++ (early ++ skipped)) (rest ++ after) key time (by
    rw [hsplit, hsegment, hsplit']
    simp only [append_assoc, cons_append])
  have hkept' : ∀ entry ∈ early ++ skipped, entry.resets key = false := by
    intro entry hentry
    apply hkept
    rw [hsegment, hsplit']
    rcases mem_append.mp hentry with hmem | hmem
    · exact mem_append_left _ hmem
    · exact mem_append_right _ (mem_append_left _ hmem)
  have htimes : ∀ other ∈ (early ++ skipped).filterMap (FailureEntry.time? key),
      time < other + failureWindow := by
    intro other hother
    apply hwindow
    · rw [hsegment, hsplit', ← append_assoc, filterMap_append]
      exact mem_append_left _ hother
    · rw [hsegment, hsplit', ← append_assoc, filterMap_append]
      apply mem_append_right
      simp [FailureEntry.time?]
  rw [sinceReset_append, sinceReset_kept hkept', recent_append, recent_all htimes] at hfew
  have hinit : init.length ≤ ((early ++ skipped).filterMap (FailureEntry.time? key)).length := by
    have hsome : init.length ≤ (early.filterMap (FailureEntry.time? key)).length := by
      rw [← hearly, length_filterMap_eq_countP, ← countP_eq_length_filter]
      apply countP_mono_left
      intro entry _ hgot'
      cases entry with
      | failure other at_ passed =>
        simp only [FailureEntry.gotPast, and_eq_true, decide_eq_true_eq] at hgot'
        simp [FailureEntry.time?, hgot'.1]
      | success other => cases hgot'
      | evicted other keys => cases hgot'
    rw [filterMap_append, length_append]
    omega
  omega

end Log

/-! ## The map of failures -/

def Holds (now : Instant) (failures : IndexMap String (List Instant))
    (known : String → List Instant) : Prop :=
  ∀ key, ∃ old, known key = old ++ (failures.get? key).getD [] ∧
    ∀ time ∈ old, time + failureWindow ≤ now

variable {failures : IndexMap String (List Instant)}

section Map

variable {now : Instant} {known : String → List Instant} {ephemeral : Ephemeral}

theorem Holds.mono (h : Holds now failures known) {later : Instant} (hlater : now ≤ later) :
    Holds later failures known := by
  intro key
  obtain ⟨old, hknown, hold⟩ := h key
  exact ⟨old, hknown, fun time htime => Nat.le_trans (hold time htime) hlater⟩

theorem window_passed {now time : Nat} (h : failureWindow ≤ now - time) :
    time + failureWindow ≤ now := by
  unfold failureWindow at h ⊢
  omega

theorem dropWhile_failures (times : List Instant) (now : Instant) :
    ∃ old, times = old ++ times.dropWhile (fun time => now - time ≥ failureWindow) ∧
      ∀ time ∈ old, time + failureWindow ≤ now := by
  refine ⟨times.takeWhile fun time => now - time ≥ failureWindow,
    takeWhile_append_dropWhile.symm, fun time htime => ?_⟩
  exact window_passed (of_decide_eq_true (List.all_eq_true.mp all_takeWhile time htime))

theorem cleanup_failures (key : String) : ((ephemeral.cleanup now).failures.get? key).getD [] =
      ((ephemeral.failures.get? key).getD []).dropWhile
        (fun time => now - time ≥ failureWindow) := by
  obtain ⟨kept, hkept⟩ : ∃ kept, kept = fun times : List Instant =>
    times.dropWhile fun time => decide (now - time ≥ failureWindow) := ⟨_, rfl⟩
  have hcleanup : (ephemeral.cleanup now).failures =
      (ephemeral.failures.mapValues kept).retain fun _ times => !times.isEmpty := by rw [hkept]; rfl
  have hdrop : ∀ times : List Instant,
      times.dropWhile (fun time => decide (now - time ≥ failureWindow)) = kept times := by
    rw [hkept]
    exact fun _ => rfl
  rw [hcleanup, hdrop]
  cases hget : ephemeral.failures.get? key with
  | none =>
    have hnone : ((ephemeral.failures.mapValues kept).retain
        fun _ times => !times.isEmpty).get? key = none := by
      apply eq_none_iff_forall_ne_some.mpr
      intro times htimes
      have hmap := (get?_retain_eq_some.mp htimes).1
      rw [get?_mapValues, hget] at hmap
      cases hmap
    rw [hnone, hkept]
    rfl
  | some times =>
    have hmap : (ephemeral.failures.mapValues kept).get? key = some (kept times) := by
      rw [get?_mapValues, hget]
      rfl
    rw [getD_some]
    by_cases hempty : kept times = []
    · rw [hempty]
      cases hretain : ((ephemeral.failures.mapValues kept).retain
          fun _ times => !times.isEmpty).get? key with
      | none => rfl
      | some found =>
        obtain ⟨hfound, hsome⟩ := get?_retain_eq_some.mp hretain
        rw [hmap] at hfound
        cases hfound
        rw [hempty] at hsome
        cases hsome
    · have hretain : ((ephemeral.failures.mapValues kept).retain
          fun _ times => !times.isEmpty).get? key = some (kept times) :=
        get?_retain_eq_some.mpr ⟨hmap, by simp [hempty]⟩
      rw [hretain, getD_some]

section

variable (h : Holds now ephemeral.failures known)
include h

theorem Holds.cleanup : Holds now (ephemeral.cleanup now).failures known := by
  intro key
  obtain ⟨old, hknown, hold⟩ := h key
  obtain ⟨more, hmore, hmoreOld⟩ := dropWhile_failures ((ephemeral.failures.get? key).getD []) now
  refine ⟨old ++ more, ?_, fun time htime => ?_⟩
  · rw [cleanup_failures, append_assoc, ← hmore]
    exact hknown
  · rcases mem_append.mp htime with hmem | hmem
    · exact hold time hmem
    · exact hmoreOld time hmem

theorem Holds.unlimited {key : String}
    (hfree : ephemeral.rateLimited key = false) : recent now (known key) < failureLimit := by
  obtain ⟨old, hknown, hold⟩ := h key
  have hfew : ((ephemeral.failures.get? key).getD []).length < failureLimit := by
    have hnot := of_decide_eq_false hfree
    omega
  rw [hknown, recent_append, recent_old hold, Nat.zero_add]
  exact Nat.lt_of_le_of_lt (recent_le now) hfew

theorem Holds.push (key : String) (time : Instant) :
    Holds now (ephemeral.pushFailure key time).failures
      fun other => if other = key then known key ++ [time] else known other := by
  intro other
  unfold Ephemeral.pushFailure
  simp only [get?_insert]
  split
  · obtain ⟨old, hknown, hold⟩ := h key
    exact ⟨old, by rw [hknown, getD_some, append_assoc], hold⟩
  · exact h other

end

theorem Holds.remove (h : Holds now failures known) (key : String) :
    Holds now (failures.shiftRemove key) fun other => if other = key then [] else known other := by
  intro other
  rw [get?_shiftRemove]
  by_cases hother : other = key
  · exact ⟨[], by simp [hother], fun _ htime => by cases htime⟩
  · simp only [hother, if_false]
    exact h other

theorem Holds.evict (limit : Nat) (order : List String) (h : Holds now failures known) :
    Holds now (Access.evict limit order failures).2
      fun key => sinceReset key (known key) (AuthWorld.evictions limit order failures) := by
  induction order generalizing failures known with
  | nil => exact h
  | cons oldest rest ih =>
    unfold Access.evict AuthWorld.evictions
    split
    · have hrest := ih (h.remove oldest)
      intro key
      obtain ⟨old, hknown, hold⟩ := hrest key
      refine ⟨old, ?_, hold⟩
      rw [← hknown]
      simp only [sinceReset, FailureEntry.resets, FailureEntry.time?]
      by_cases hkey : oldest = key
      · simp [hkey]
      · simp [hkey, Ne.symm hkey]
    · exact h

end Map

/-! ## Runs -/

/-- The failures are counted exactly: what is in the map, the log so far, and
what a call that got past the check may still record. -/
structure RateSound (world : AuthWorld) : Prop where
  holds : Holds world.clock world.ephemeral.failures fun key => sinceReset key [] world.failureLog
  limited : Limited world.failureLog
  single : world.threads.entries.length ≤ 1
  passed : ∀ id thread key, world.threads.get? id = some thread →
    thread.call.passedKey = some key →
    recent world.clock (sinceReset key [] world.failureLog) < failureLimit
  full : ∀ key keys, .evicted key keys ∈ world.failureLog → maxFailureKeys < keys

section Runs

variable {verify : String → String → String → Bool} {world world' : AuthWorld}
  {action : AuthAction} {id : Nat} {thread : Thread} {env : Surroundings}

theorem evictions_spec {limit : Nat} {order : List String} {map : IndexMap String (List Instant)}
    {entry : FailureEntry} (h : entry ∈ AuthWorld.evictions limit order map) :
    ∃ key keys, entry = .evicted key keys ∧ limit < keys := by
  induction order generalizing map with
  | nil => cases h
  | cons oldest rest ih =>
    unfold AuthWorld.evictions at h
    split at h
    · rename_i hfull
      rcases mem_cons.mp h with rfl | hrest
      · exact ⟨oldest, map.length, rfl, hfull⟩
      · exact ih hrest
    · cases h

/-- What one step of a call does to the failures. -/
inductive FailureStep (world : AuthWorld) (call : Call) (ephemeral : Ephemeral)
    (log : List FailureEntry) (next : Option Call) : Prop where
  /-- nothing, or a cleanup; the next step records under a key that is checked already -/
  | quiet (hfailures : ephemeral.failures = world.ephemeral.failures ∨
      ephemeral.failures = (world.ephemeral.cleanup world.clock).failures)
    (hlog : log = world.failureLog)
    (hnext : ∀ later key, next = some later → later.passedKey = some key →
      call.passedKey = some key)
  /-- the check -/
  | checked (key : String) (hfailures : ephemeral.failures =
      (world.ephemeral.cleanup world.clock).failures) (hlog : log = world.failureLog)
    (hfree : (world.ephemeral.cleanup world.clock).rateLimited key = false)
    (hnext : ∀ later other, next = some later → later.passedKey = some other → other = key)
  | recorded (key : String) (passed : Bool) (hcall : call = .recordFailure key passed)
    (hfailures : ephemeral = world.ephemeral.recordFailure key world.clock)
    (hlog : log = world.failureLog ++ world.failureEntries key passed) (hnext : next = none)
  | succeeded (key : String)
    (hfailures : ephemeral.failures = world.ephemeral.failures.shiftRemove key)
    (hlog : log = world.failureLog ++ [.success key])
    (hnext : ∀ later, next = some later → later.passedKey = none)

theorem advance_failures (verify : String → String → String → Bool) (world : AuthWorld) (id : Nat) (thread : Thread) (env : Surroundings) :
    FailureStep world thread.call (world.advance verify id thread env).1.ephemeral
      (world.advance verify id thread env).1.failureLog
      (world.advance verify id thread env).2 := by
  obtain ⟨call, since, revokedBefore⟩ := thread
  cases call with
  | pairAssert input =>
    simp only [AuthWorld.advance]
    split
    · exact .quiet (.inr rfl) rfl fun _ _ hnext => by cases hnext
    rename_i hfree
    rw [not_eq_true] at hfree
    split
    · exact .checked "pair" rfl rfl hfree fun _ _ hnext hkey => by
        cases hnext
        exact (Option.some.inj hkey).symm
    · split
      · exact .checked "pair" rfl rfl hfree fun _ _ hnext => by cases hnext
      exact .checked "pair" rfl rfl hfree fun _ _ hnext hkey => by
        cases hnext
        exact (Option.some.inj hkey).symm
  | recordFailure key passed => exact .recorded key passed rfl rfl rfl rfl
  | authenticateAssert input =>
    simp only [AuthWorld.advance]
    split
    · exact .quiet (.inl rfl) rfl fun _ _ hnext hkey => by
        cases hnext
        cases hkey
    split
    · exact .quiet (.inr rfl) rfl fun _ _ hnext => by cases hnext
    rename_i hfree
    rw [not_eq_true] at hfree
    exact .checked input.deviceId rfl rfl hfree fun _ _ hnext hkey => by
      cases hnext
      exact (Option.some.inj hkey).symm
  | authenticateOpen input challenge checkedAt device =>
    exact .succeeded input.deviceId rfl rfl fun _ hnext => by cases hnext; rfl
  | challengePut deviceId => exact .quiet (.inr rfl) rfl fun _ _ hnext => by cases hnext
  | _ =>
    simp only [AuthWorld.advance]
    repeat' split
    all_goals first
      | refine .quiet (.inl rfl) rfl ?_
      | refine .quiet (.inr rfl) rfl ?_
    all_goals
      intro later key hnext hkey
      cases hnext
    all_goals first
      | exact hkey
      | cases hkey

theorem failureStep_sound (h : RateSound world) (hthr : world.threads.get? id = some thread)
    {ephemeral : Ephemeral} {log : List FailureEntry} {next : Option Call}
    (hstep : FailureStep world thread.call ephemeral log next) :
    Holds world.clock ephemeral.failures (fun key => sinceReset key [] log) ∧ Limited log ∧
      (∀ key keys, .evicted key keys ∈ log → maxFailureKeys < keys) ∧
      ∀ later key, next = some later → later.passedKey = some key →
        recent world.clock (sinceReset key [] log) < failureLimit := by
  cases hstep with
  | quiet hfailures hlog hnext =>
    subst hlog
    refine ⟨?_, h.limited, h.full, fun later key hlater hkey =>
      h.passed id thread key hthr (hnext later key hlater hkey)⟩
    rcases hfailures with hsame | hclean
    · rw [hsame]
      exact h.holds
    · rw [hclean]
      exact h.holds.cleanup
  | checked key hfailures hlog hfree hnext =>
    subst hlog
    rw [hfailures]
    refine ⟨h.holds.cleanup, h.limited, h.full, fun later other hlater hkey => ?_⟩
    rw [hnext later other hlater hkey]
    exact h.holds.cleanup.unlimited hfree
  | recorded key passed hcall hfailures hlog hnext =>
    subst hlog hnext hfailures
    have hpushed := (h.holds.cleanup.push key world.clock).evict maxFailureKeys
      ((world.ephemeral.cleanup world.clock).pushFailure key world.clock).failureOrder
    refine ⟨?_, h.limited.append ?_, ?_, fun _ _ hlater => by cases hlater⟩
    · intro other
      obtain ⟨old, hknown, hold⟩ := hpushed other
      refine ⟨old, ?_, hold⟩
      refine Eq.trans ?_ hknown
      unfold AuthWorld.failureEntries
      simp only [sinceReset_append, sinceReset, FailureEntry.resets, FailureEntry.time?, false_eq_true, if_false]
      by_cases hother : other = key
      · simp [hother]
      · simp [hother, Ne.symm hother]
    · intro before after other time hsplit
      cases before with
      | nil =>
        unfold AuthWorld.failureEntries at hsplit
        rw [nil_append, List.cons.injEq] at hsplit
        obtain ⟨hentry, -⟩ := hsplit
        cases hentry
        rw [append_nil]
        exact h.passed id thread _ hthr (by rw [hcall]; rfl)
      | cons entry before =>
        unfold AuthWorld.failureEntries at hsplit
        rw [cons_append, List.cons.injEq] at hsplit
        obtain ⟨-, hrest⟩ := hsplit
        obtain ⟨_, _, hevicted, -⟩ := evictions_spec (hrest ▸ mem_append_right before mem_cons_self)
        cases hevicted
    · intro other keys hmem
      rcases mem_append.mp hmem with hold | hnew
      · exact h.full other keys hold
      rcases mem_cons.mp hnew with hfirst | hevicted
      · cases hfirst
      obtain ⟨_, _, hentry, hfew⟩ := evictions_spec hevicted
      cases hentry
      exact hfew
  | succeeded key hfailures hlog hnext =>
    subst hlog
    rw [hfailures]
    refine ⟨?_, h.limited.append ?_, ?_, fun later other hlater hkey => ?_⟩
    · intro other
      obtain ⟨old, hknown, hold⟩ := h.holds.remove key other
      refine ⟨old, ?_, hold⟩
      refine Eq.trans ?_ hknown
      simp only [sinceReset_append, sinceReset, FailureEntry.resets, FailureEntry.time?]
      by_cases hother : other = key
      · simp [hother]
      · simp [hother, Ne.symm hother]
    · intro before after other time hsplit
      have hmem : FailureEntry.failure other time true ∈ [FailureEntry.success key] :=
        hsplit ▸ mem_append_right before mem_cons_self
      cases mem_singleton.mp hmem
    · intro other keys hmem
      rcases mem_append.mp hmem with hold | hnew
      · exact h.full other keys hold
      · cases mem_singleton.mp hnew
    · rw [hnext later hlater] at hkey
      cases hkey

theorem rate_step (h : RateSound world) (hsequential : Sequential world action)
    (hstep : (authSystem verify).step world action = some world') : RateSound world' := by
  cases action with
  | tick milliseconds =>
    cases hstep
    refine ⟨h.holds.mono (Nat.le_add_right _ _), h.limited, h.single, ?_, h.full⟩
    intro id thread key hthr hkey
    exact Nat.lt_of_le_of_lt (recent_mono (Nat.le_add_right _ _)) (h.passed id thread key hthr hkey)
  | createPairingCode id code expiresAt =>
    obtain ⟨-, hstep⟩ := ite_none_left_eq_some.mp hstep
    cases hstep
    exact { h with }
  | begin request =>
    cases hstep
    have hnone : world.threads = .empty := IndexMap.ext hsequential
    refine ⟨h.holds, h.limited, ?_, ?_, h.full⟩
    · rw [hnone]
      exact Nat.le_refl 1
    · intro id thread key hthr hkey
      rw [hnone, get?_insert] at hthr
      split at hthr
      · cases hthr
        cases request <;> cases hkey
      · cases hthr
  | restart => exact absurd hsequential id
  | step id env =>
    simp only [authSystem, authStep] at hstep
    split at hstep
    · cases hstep
    rename_i thread hthr
    obtain ⟨-, hstep⟩ := ite_none_right_eq_some.mp hstep
    have hfailures := advance_failures verify world id thread env
    obtain ⟨hclock, hthreads⟩ := advance_frame verify world id thread env
    generalize world.advance verify id thread env = result at *
    obtain ⟨next, call⟩ := result
    simp only at hfailures hclock hthreads hstep
    have honly : ∀ other found, world.threads.get? other = some found → other = id := by
      intro other found hother
      have hsingle := h.single
      have hmem := get?_eq_some.mp hother
      have hmem' := get?_eq_some.mp hthr
      generalize world.threads.entries = entries at *
      rcases entries with _ | ⟨entry, _ | ⟨second, rest⟩⟩
      · cases hmem
      · rw [mem_singleton] at hmem hmem'
        exact congrArg Prod.fst (hmem.trans hmem'.symm)
      · simp at hsingle
    obtain ⟨hholds, hlimited, hfull, hpassed⟩ :
        Holds next.clock next.ephemeral.failures (fun key => sinceReset key [] next.failureLog) ∧
        Limited next.failureLog ∧
        (∀ key keys, .evicted key keys ∈ next.failureLog → maxFailureKeys < keys) ∧
        ∀ later key, call = some later → later.passedKey = some key →
          recent next.clock (sinceReset key [] next.failureLog) < failureLimit := by
      rw [hclock]
      exact failureStep_sound h hthr hfailures
    cases call with
    | none =>
      cases hstep
      refine ⟨hholds, hlimited, ?_, ?_, hfull⟩
      · simp only
        rw [hthreads]
        exact Nat.le_trans (length_filter_le _ _) h.single
      · intro other found key hother
        obtain ⟨hne, hother⟩ := get?_shiftRemove_eq_some.mp hother
        rw [hthreads] at hother
        exact absurd (honly other found hother) hne
    | some call =>
      cases hstep
      refine ⟨hholds, hlimited, ?_, ?_, hfull⟩
      · simp only
        rw [hthreads, IndexMap.insert_eq_modify hthr]
        exact Nat.le_trans (Nat.le_of_eq (IndexMap.length_modify _ _ _)) h.single
      · intro other found key hother hkey
        simp only [get?_insert] at hother
        split at hother
        · cases hother
          exact hpassed call key rfl hkey
        rename_i hne
        rw [hthreads] at hother
        exact absurd (honly other found hother) hne

theorem rate_sound (hrun : (authSystem verify).Run Sequential world) : RateSound world := by
  apply hrun.invariant
  · rintro start ⟨codes, rfl⟩
    refine ⟨fun _ => ⟨[], rfl, fun _ htime => by cases htime⟩, ?_, Nat.zero_le _,
      (fun _ _ _ hget => by cases hget), (fun _ _ hmem => by cases hmem)⟩
    intro before after key time hsplit
    have hlength := congrArg List.length hsplit
    simp [AuthWorld.start] at hlength
  · exact fun _ _ _ h hsequential hstep => rate_step h hsequential hstep

end Runs

def failedWorld (failures : IndexMap String (List Instant)) (order : List String)
    (log : List FailureEntry) (calls : Nat) : AuthWorld :=
  { AuthWorld.start .empty with
    ephemeral := { Ephemeral.empty with failures := failures, failureOrder := order }
    nextThread := calls
    failureLog := log }

section Failing

variable {order : List String} {log : List FailureEntry} {calls : Nat}

theorem cleanup_start (order : List String) (h : ∀ entry ∈ failures.entries, entry.2 ≠ [] ∧ ∀ time ∈ entry.2, time = 0) :
    ({ Ephemeral.empty with failures := failures, failureOrder := order } : Ephemeral).cleanup 0 =
      { Ephemeral.empty with failures := failures, failureOrder := order } := by
  have hkeep : ∀ entry ∈ failures.entries,
      entry.2.dropWhile (fun time => decide (0 - time ≥ failureWindow)) = entry.2 := by
    intro entry hentry
    cases htimes : entry.2 with
    | nil => rfl
    | cons time rest => simp [failureWindow]
  have hfailures : (failures.mapValues fun times =>
      times.dropWhile fun time => decide (0 - time ≥ failureWindow)).retain
        (fun _ times => !times.isEmpty) = failures := by
    apply IndexMap.ext
    unfold IndexMap.retain IndexMap.mapValues
    simp only
    have hmap : failures.entries.map (fun entry => (entry.1,
        entry.2.dropWhile fun time => decide (0 - time ≥ failureWindow))) = failures.entries := by
      conv_rhs => rw [← List.map_id failures.entries]
      apply map_congr_left
      intro entry hentry
      exact Prod.ext rfl (hkeep entry hentry)
    rw [hmap, filter_eq_self]
    intro entry hentry
    simp [(h entry hentry).1]
  unfold Ephemeral.cleanup
  simp only
  rw [hfailures]
  rfl

def failingWorld (failures : IndexMap String (List Instant)) (order : List String)
    (log : List FailureEntry) (calls : Nat) (call : Call) : AuthWorld :=
  { failedWorld failures order log (calls + 1) with
    threads := IndexMap.empty.insert calls ⟨call, 0, []⟩ }

variable {ν : Type} (number : Nat)

theorem insert_again (id : Nat) (old new : ν) :
    ((IndexMap.empty.insert id old).insert id new) = IndexMap.empty.insert id new := by
  apply IndexMap.ext
  have hget : (IndexMap.empty.insert id old).get? id = some old := by
    rw [get?_insert, if_pos rfl]
  rw [IndexMap.insert_eq_modify hget]
  simp [IndexMap.insert, IndexMap.modify, IndexMap.empty, updateRow]

theorem shiftRemove_single (id : Nat) (value : ν) :
    (IndexMap.empty.insert id value).shiftRemove id = IndexMap.empty := by
  apply IndexMap.ext
  simp [IndexMap.insert, IndexMap.shiftRemove, IndexMap.retain, IndexMap.empty]

theorem failing_step {verify : String → String → String → Bool} {call next : Call}
    (h : (failingWorld failures order log calls call).advance verify calls ⟨call, 0, []⟩
      ⟨false, "", 0, 0⟩ = (failingWorld failures order log calls call, some next)) :
    (authSystem verify).step (failingWorld failures order log calls call)
      (.step calls ⟨false, "", 0, 0⟩) = some (failingWorld failures order log calls next) := by
  have hget : (failingWorld failures order log calls call).threads.get? calls =
      some ⟨call, 0, []⟩ := by
    unfold failingWorld
    rw [get?_insert, if_pos rfl]
  simp only [authSystem, authStep, hget, h]
  rw [if_pos ⟨le_rfl, le_rfl⟩]
  unfold failingWorld
  simp only [insert_again]
  rfl

/-- A call with an unknown nonce, from the beginning to its failure. -/
theorem run_failure {verify : String → String → String → Bool} (key : String)
    (hrun : (authSystem verify).Run Sequential (failedWorld failures order log calls))
    (hvalid : validDeviceId key = true)
    (hzero : ∀ entry ∈ failures.entries, entry.2 ≠ [] ∧ ∀ time ∈ entry.2, time = 0)
    (hfree : ((failures.get? key).getD []).length < failureLimit) :
    (authSystem verify).Run Sequential (failedWorld
      (evict maxFailureKeys (order ++ [key])
        (failures.insert key ((failures.get? key).getD [] ++ [0]))).2
      (evict maxFailureKeys (order ++ [key])
        (failures.insert key ((failures.get? key).getD [] ++ [0]))).1
      (log ++ .failure key 0 true :: AuthWorld.evictions maxFailureKeys (order ++ [key])
        (failures.insert key ((failures.get? key).getD [] ++ [0]))) (calls + 1)) := by
  have hclean := cleanup_start order hzero
  obtain ⟨input, hinput⟩ : ∃ input : AuthenticateDevice, input = ⟨key, "", ""⟩ := ⟨_, rfl⟩
  have hbegun : (authSystem verify).Run Sequential
      (failingWorld failures order log calls (.authenticateAssert input)) :=
    hrun.next (a := .begin (.authenticate input)) rfl rfl
  have hassert : (authSystem verify).Run Sequential
      (failingWorld failures order log calls (.authenticateTake input)) := by
    refine hbegun.next (a := .step calls ⟨false, "", 0, 0⟩) trivial (failing_step ?_)
    have hlimit : (({ Ephemeral.empty with
        failures := failures, failureOrder := order } : Ephemeral)).rateLimited key = false :=
      decide_eq_false (Nat.not_le_of_lt hfree)
    rw [hinput]
    simp only [AuthWorld.advance, failingWorld, failedWorld, AuthWorld.start, hvalid, hclean, hlimit]
    rfl
  have htake : (authSystem verify).Run Sequential
      (failingWorld failures order log calls (.authenticateRow input none)) := by
    refine hassert.next (a := .step calls ⟨false, "", 0, 0⟩) trivial (failing_step ?_)
    simp only [AuthWorld.advance, failingWorld, failedWorld, AuthWorld.start, hclean]
    rfl
  have hrow : (authSystem verify).Run Sequential
      (failingWorld failures order log calls (.recordFailure key true)) := by
    refine htake.next (a := .step calls ⟨false, "", 0, 0⟩) trivial (failing_step ?_)
    rw [hinput]
    rfl
  refine hrow.next (a := .step calls ⟨false, "", 0, 0⟩) trivial ?_
  have hget : (failingWorld failures order log calls (.recordFailure key true)).threads.get? calls =
      some ⟨.recordFailure key true, 0, []⟩ := by
    unfold failingWorld
    rw [get?_insert, if_pos rfl]
  simp only [authSystem, authStep, hget]
  rw [if_pos ⟨le_rfl, le_rfl⟩]
  simp only [AuthWorld.advance, failingWorld, failedWorld, AuthWorld.start,
    AuthWorld.failureEntries, Ephemeral.recordFailure, hclean, shiftRemove_single]
  rfl

/-! ### Devices with different names -/

def deviceName (number : Nat) : String :=
  (List.range 12).foldl (fun name digit => name.push (if number.testBit digit then '1' else '0')) ""

theorem deviceName_toList : (deviceName number).toList =
    (List.range 12).map fun digit => if number.testBit digit then '1' else '0' := by
  have hfold : ∀ (digits : List Nat) (name : String),
      (digits.foldl (fun name digit =>
        name.push (if number.testBit digit then '1' else '0')) name).toList =
          name.toList ++ digits.map fun digit => if number.testBit digit then '1' else '0' := by
    intro digits
    induction digits with
    | nil => simp
    | cons digit digits ih =>
      intro name
      rw [foldl_cons, ih, String.toList_push]
      simp
  rw [deviceName, hfold]
  rfl

theorem deviceName_size : (deviceName number).utf8ByteSize = 12 := by
  have hdigit : ∀ digit, (if number.testBit digit then '1' else '0').utf8Size = 1 := by
    intro digit
    split <;> rfl
  have hfold : ∀ (digits : List Nat) (name : String),
      (digits.foldl (fun name digit =>
        name.push (if number.testBit digit then '1' else '0')) name).utf8ByteSize =
          name.utf8ByteSize + digits.length := by
    intro digits
    induction digits with
    | nil =>
      intro name
      rfl
    | cons digit digits ih =>
      intro name
      rw [foldl_cons, ih, String.utf8ByteSize_push, hdigit, length_cons]
      omega
  rw [deviceName, hfold]
  rfl

theorem deviceName_valid : validDeviceId (deviceName number) = true := by
  unfold validDeviceId
  rw [deviceName_size, deviceName_toList, List.all_map]
  simp only [and_eq_true, decide_eq_true_eq, List.all_eq_true]
  refine ⟨⟨by omega, by omega⟩, fun digit _ => ?_⟩
  simp only [Function.comp]
  split <;> decide

theorem deviceName_inj {first second : Nat} (hfirst : first < 4096) (hsecond : second < 4096)
    (h : deviceName first = deviceName second) : first = second := by
  have hdigits := congrArg String.toList h
  rw [deviceName_toList, deviceName_toList, map_inj_left] at hdigits
  apply Nat.eq_of_testBit_eq
  intro digit
  by_cases hdigit : digit < 12
  · have hsame := hdigits digit (mem_range.mpr hdigit)
    revert hsame
    cases first.testBit digit <;> cases second.testBit digit <;> decide
  · have hpow : 2 ^ 12 ≤ 2 ^ digit := Nat.pow_le_pow_right (by omega) (by omega)
    rw [Nat.testBit_lt_two_pow (by omega), Nat.testBit_lt_two_pow (by omega)]

theorem deviceName_ne : deviceName number ≠ "unknown_device" := by
  intro h
  have hsize := congrArg String.utf8ByteSize h
  rw [deviceName_size] at hsize
  revert hsize
  decide

/-! ### A key that is reset by others -/

def FailureEntry.plain : FailureEntry → Bool
  | .failure _ time _ => time = 0
  | .success _ => false
  | .evicted _ _ => true

/-- After failures of `unknown_device` and of the first devices. -/
structure Failed (failures : IndexMap String (List Instant)) (log : List FailureEntry)
    (own others : Nat) : Prop where
  zero : ∀ entry ∈ failures.entries, entry.2 ≠ [] ∧ ∀ time ∈ entry.2, time = 0
  mine : ((failures.get? "unknown_device").getD []).length = own
  unused : ∀ number, others ≤ number → number < 4096 → failures.get? (deviceName number) = none
  few : failures.length ≤ others + 1
  count : (log.filter (FailureEntry.gotPast "unknown_device")).length = own
  plain : ∀ entry ∈ log, entry.plain = true

theorem evict_small {limit : Nat} {order : List String} {map : IndexMap String ν}
    (h : map.length ≤ limit) : evict limit order map = (order, map) := by
  cases order with
  | nil => rfl
  | cons oldest rest =>
    rw [evict, if_neg (Nat.not_lt_of_le h)]

theorem evictions_small {limit : Nat} {order : List String}
    {map : IndexMap String (List Instant)} (h : map.length ≤ limit) :
    AuthWorld.evictions limit order map = [] := by
  cases order with
  | nil => rfl
  | cons oldest rest => rw [AuthWorld.evictions, if_neg (Nat.not_lt_of_le h)]

theorem zero_insert (hzero : ∀ entry ∈ failures.entries, entry.2 ≠ [] ∧ ∀ time ∈ entry.2, time = 0)
    (key : String) : ∀ entry ∈ (failures.insert key ((failures.get? key).getD [] ++ [0])).entries,
      entry.2 ≠ [] ∧ ∀ time ∈ entry.2, time = 0 := by
  rintro ⟨other, times⟩ hmem
  have hget := get?_eq_some.mpr hmem
  rw [get?_insert] at hget
  split at hget
  · cases hget
    refine ⟨append_ne_nil_of_right_ne_nil _ (cons_ne_nil _ _), fun time htime => ?_⟩
    rcases mem_append.mp htime with hold | hlast
    · cases hknown : failures.get? key with
      | none =>
        rw [hknown] at hold
        cases hold
      | some known =>
        rw [hknown] at hold
        exact (hzero _ (get?_eq_some.mp hknown)).2 time hold
    · exact mem_singleton.mp hlast
  · exact hzero _ (get?_eq_some.mp hget)

/-- The key fails until it is limited. -/
theorem fails_own (verify : String → String → String → Bool) (own : Nat) (hown : own ≤ 8) :
    ∃ failures order log calls,
      (authSystem verify).Run Sequential (failedWorld failures order log calls) ∧
      Failed failures log own 0 ∧
      (own = 0 ∧ failures.entries = [] ∧ order = [] ∨
        own ≠ 0 ∧ order.head? = some "unknown_device") := by
  induction own with
  | zero =>
    refine ⟨.empty, [], [], 0, .start ⟨.empty, rfl⟩, ⟨?_, rfl, fun _ _ _ => rfl, Nat.zero_le _, rfl,
      ?_⟩, .inl ⟨rfl, rfl, rfl⟩⟩
    · exact fun _ hmem => by cases hmem
    · exact fun _ hmem => by cases hmem
  | succ own ih =>
    obtain ⟨failures, order, log, calls, hrun, hfailed, hbegun⟩ := ih (by omega)
    have hnext := run_failure "unknown_device" hrun (by decide) hfailed.zero (by
      rw [hfailed.mine]
      unfold failureLimit
      omega)
    have hlength : (failures.insert "unknown_device"
        ((failures.get? "unknown_device").getD [] ++ [0])).length ≤ 1 := by
      cases hknown : failures.get? "unknown_device" with
      | none =>
        rcases hbegun with ⟨-, hempty, -⟩ | ⟨hsome, -⟩
        · unfold IndexMap.length
          rw [insert_entries hknown, hempty]
          exact Nat.le_refl 1
        · have hlen := hfailed.mine
          rw [hknown] at hlen
          exact absurd hlen.symm hsome
      | some old =>
        rw [IndexMap.insert_eq_modify hknown, IndexMap.length_modify]
        exact hfailed.few
    have hsmall : (failures.insert "unknown_device"
        ((failures.get? "unknown_device").getD [] ++ [0])).length ≤ maxFailureKeys := by
      unfold maxFailureKeys
      omega
    rw [evict_small hsmall, evictions_small hsmall] at hnext
    refine ⟨_, _, _, _, hnext, ⟨zero_insert hfailed.zero _, ?_, ?_, hlength, ?_, ?_⟩,
      .inr ⟨Nat.succ_ne_zero own, ?_⟩⟩
    · rw [get?_insert, if_pos rfl, getD_some, length_append, hfailed.mine]
      rfl
    · intro number hle hlt
      rw [get?_insert, if_neg (deviceName_ne number)]
      exact hfailed.unused number hle hlt
    · rw [filter_append, length_append, hfailed.count]
      rfl
    · intro entry hmem
      rcases mem_append.mp hmem with hold | hlast
      · exact hfailed.plain entry hold
      · cases mem_singleton.mp hlast
        rfl
    · rcases hbegun with ⟨-, -, rfl⟩ | ⟨-, hhead⟩
      · rfl
      · simp only [head?_append, hhead, some_or]

theorem Failed.other {own others : Nat} (h : Failed failures log own others) (hfew : others < 4096) :
    (∀ number, others + 1 ≤ number → number < 4096 →
      (failures.insert (deviceName others) [0]).get? (deviceName number) = none) ∧
    (((failures.insert (deviceName others) [0]).get? "unknown_device").getD []).length = own := by
  constructor
  · intro number hle hlt
    rw [get?_insert, if_neg]
    · exact h.unused number (by omega) hlt
    · intro hsame
      have hnumber := deviceName_inj hlt hfew hsame
      omega
  · rw [get?_insert, if_neg (Ne.symm (deviceName_ne others))]
    exact h.mine

/-- Other devices fail, as many as the map has room for. -/
theorem fails_others (verify : String → String → String → Bool) (others : Nat)
    (hothers : others ≤ 4095) : ∃ failures order log calls,
      (authSystem verify).Run Sequential (failedWorld failures order log calls) ∧
      Failed failures log 8 others ∧ failures.length = others + 1 ∧
      order.head? = some "unknown_device" := by
  induction others with
  | zero =>
    obtain ⟨failures, order, log, calls, hrun, hfailed, ⟨habs, -⟩ | ⟨-, hhead⟩⟩ :=
      fails_own verify 8 le_rfl
    · cases habs
    refine ⟨failures, order, log, calls, hrun, hfailed, ?_, hhead⟩
    have hfew := hfailed.few
    have hmine := hfailed.mine
    cases hentries : failures.entries with
    | nil =>
      have hnone : failures.get? "unknown_device" = none :=
        get?_eq_none.mpr fun _ hmem => by rw [hentries] at hmem; cases hmem
      rw [hnone] at hmine
      cases hmine
    | cons entry rest =>
      unfold IndexMap.length at hfew ⊢
      rw [hentries, length_cons] at hfew ⊢
      omega
  | succ others ih =>
    obtain ⟨failures, order, log, calls, hrun, hfailed, hlength, hhead⟩ := ih (by omega)
    have hnew := hfailed.unused others le_rfl (by omega)
    have hnext := run_failure _ hrun (deviceName_valid others) hfailed.zero (by
      rw [hnew]
      decide)
    have hzero := zero_insert hfailed.zero (deviceName others)
    rw [hnew, getD_none, nil_append] at hnext hzero
    have hlength' : (failures.insert (deviceName others) [0]).length = others + 1 + 1 := by
      unfold IndexMap.length
      rw [insert_entries hnew, length_append, length_singleton]
      exact congrArg (· + 1) hlength
    have hsmall : (failures.insert (deviceName others) [0]).length ≤ maxFailureKeys := by
      unfold maxFailureKeys
      omega
    rw [evict_small hsmall, evictions_small hsmall] at hnext
    obtain ⟨hunused, hmine⟩ := hfailed.other (by omega)
    refine ⟨_, _, _, _, hnext, ⟨hzero, hmine, hunused, Nat.le_of_eq hlength', ?_, ?_⟩, hlength', ?_⟩
    · rw [filter_append, length_append, hfailed.count]
      simp [FailureEntry.gotPast, deviceName_ne]
    · intro entry hmem
      rcases mem_append.mp hmem with hold | hlast
      · exact hfailed.plain entry hold
      · cases mem_singleton.mp hlast
        rfl
    · simp only [head?_append, hhead, some_or]

end Failing

end Yaade.Access
