import Mathlib.Tactic

/-!
A numbered stream that is read through a queue and can be resumed.
-/

namespace Yaade.Library.Resume

open List
open Bool hiding and_assoc

inductive Token where
  | frame (sequence : Nat)
  | fence
  | result (snapshot : Option Nat)
  deriving DecidableEq

def Token.sequence? : Token → Option Nat
  | .frame sequence => some sequence
  | _ => none

@[simp] theorem Token.sequence?_frame (sequence : Nat) :
    (Token.frame sequence).sequence? = some sequence := rfl

@[simp] theorem Token.sequence?_fence : Token.fence.sequence? = none := rfl

@[simp] theorem Token.sequence?_result (snapshot : Option Nat) :
    (Token.result snapshot).sequence? = none := rfl

def Token.isResult : Token → Bool
  | .result _ => true
  | _ => false

def frames (tokens : List Token) : List Nat := tokens.filterMap Token.sequence?

def record (window : Option (Option Nat × List Token)) : Token → Option (Option Nat × List Token)
  | .result snapshot => some (snapshot, [])
  | token => window.map fun (snapshot, after) => (snapshot, after ++ [token])

def since (tokens : List Token) : Option (Option Nat × List Token) := tokens.foldl record none

def FenceLast (tokens : List Token) : Prop :=
  ∃ before after, tokens = before ++ .fence :: after ∧ frames after = []

section Tokens

variable {tokens first second : List Token} {snapshot : Option Nat} {after : List Token}

@[simp] theorem frames_nil : frames [] = [] := rfl

@[simp] theorem frames_append : frames (first ++ second) = frames first ++ frames second :=
  filterMap_append

@[simp] theorem frames_frame (sequence : Nat) : frames [.frame sequence] = [sequence] := rfl

@[simp] theorem frames_fence : frames [.fence] = [] := rfl

theorem mem_frames {sequence : Nat} : sequence ∈ frames tokens ↔ .frame sequence ∈ tokens := by
  unfold frames
  rw [mem_filterMap]
  constructor
  · rintro ⟨token, hmem, htoken⟩
    cases token <;> cases htoken
    exact hmem
  · exact fun hmem => ⟨_, hmem, rfl⟩

theorem since_append (token : Token) : since (tokens ++ [token]) = record (since tokens) token := by
  rw [since, foldl_append]
  rfl

theorem since_token {token : Token} (htoken : token.isResult = false)
    (hsince : since tokens = some (snapshot, after)) :
    since (tokens ++ [token]) = some (snapshot, after ++ [token]) := by
  rw [since_append, hsince]
  cases token <;> first | rfl | cases htoken

theorem since_split (before : List Token) (hafter : ∀ token ∈ after, token.isResult = false) :
    since (before ++ .result snapshot :: after) = some (snapshot, after) := by
  induction after using List.reverseRecOn with
  | nil => exact since_append _
  | append_singleton init token ih =>
    have hinit := ih fun other hother => hafter other (mem_append_left _ hother)
    have hlast := hafter token mem_concat_self
    have hassoc : before ++ .result snapshot :: (init ++ [token]) =
        (before ++ .result snapshot :: init) ++ [token] := by simp
    rw [hassoc]
    exact since_token hlast hinit

theorem FenceLast.mem (h : FenceLast tokens) : .fence ∈ tokens := by
  obtain ⟨before, after, rfl, -⟩ := h
  exact mem_append_right _ mem_cons_self

theorem fenceLast_push (tokens : List Token) : FenceLast (tokens ++ [.fence]) :=
  ⟨tokens, [], rfl, rfl⟩

theorem FenceLast.split (h : FenceLast (first ++ second)) : FenceLast first ∨ .fence ∈ second := by
  obtain ⟨before, after, heq, hafter⟩ := h
  rcases append_eq_append_iff.mp heq with ⟨rest, -, hsecond⟩ | ⟨rest, hfirst, hrest⟩
  · exact .inr (by rw [hsecond]; exact mem_append_right _ mem_cons_self)
  cases rest with
  | nil => exact .inr (by rw [nil_append] at hrest; rw [← hrest]; exact mem_cons_self)
  | cons token rest =>
    cases hrest
    have hparts : frames rest ++ frames second = [] := frames_append.symm.trans hafter
    exact .inl ⟨before, rest, hfirst, (append_eq_nil_iff.mp hparts).1⟩

def uncovered (snapshot : Nat) (tokens : List Token) : List Token :=
  tokens.filter fun token => token.sequence?.all fun sequence => snapshot < sequence

theorem frames_uncovered (snapshot : Nat) (tokens : List Token) :
    frames (uncovered snapshot tokens) =
      (frames tokens).filter fun sequence => snapshot < sequence := by
  induction tokens with
  | nil => rfl
  | cons token rest ih =>
    unfold uncovered frames at ih ⊢
    cases token with
    | frame sequence =>
      by_cases hcov : snapshot < sequence
      · simp [hcov, ih]
      · simp [hcov, ih]
    | fence | result => simpa [filter_cons, filterMap_cons] using ih

theorem FenceLast.uncovered (h : FenceLast tokens) (snapshot : Nat) :
    FenceLast (uncovered snapshot tokens) := by
  obtain ⟨before, after, rfl, hafter⟩ := h
  refine ⟨Resume.uncovered snapshot before, Resume.uncovered snapshot after, ?_, ?_⟩
  · simp [Resume.uncovered, filter_append, filter_cons]
  · rw [frames_uncovered, hafter]
    rfl

theorem range_split {start count : Nat} {first second : List Nat}
    (h : first ++ second = List.range' start count) : first = List.range' start first.length ∧
      second = List.range' (start + first.length) second.length := by
  have hlength : first.length + second.length = count := by
    simpa using congrArg List.length h
  have hrange : List.range' start count = List.range' start first.length ++
      List.range' (start + first.length) second.length := by
    rw [← hlength, range'_append_1]
  rw [hrange] at h
  exact append_inj h (by simp)

end Tokens

/-! ## A stream and its reader -/

/-- One stream as its reader gets it: what was read and what waits to be, and
the number of the last frame. While an answer is being `renewed` nothing is
read; the first component says whether the reader had the stream before, the
second is the answer once there is one. -/
structure Feed where
  past : List Token
  queue : List Token
  last : Nat
  renewing : Option (Bool × Option Nat)
  credited : Bool
  fenced : Bool
  closing : Bool
  wanted : Bool
  wired : Bool

namespace Feed

def live (feed : Feed) : Bool := feed.credited && feed.wanted

def listens (feed : Feed) : Bool := !feed.closing && !feed.fenced && feed.credited

def Gapless (past : List Token) : Prop :=
  ∀ early, early <+: past → ∀ snapshot after, since early = some (some snapshot, after) →
    ∃ count, frames after = List.range' (snapshot + 1) count

def Announced (feed : Feed) (snapshot : Nat) (after : List Token) : Prop :=
  ∃ count, frames after = List.range' (snapshot + 1) count ∧
    ((∀ sequence, snapshot + count < sequence → sequence ≤ feed.last →
        .frame sequence ∈ feed.queue) ∨
      feed.closing = true ∨ .fence ∈ feed.queue ∨ FenceLast after)

/-- From a snapshot on the tokens hold the frames up to the last one, unless
the stream is fenced or ends. -/
structure Follows (feed : Feed) (snapshot : Nat) (tokens : List Token) : Prop where
  bound : snapshot + (frames tokens).length ≤ feed.last
  frames : Resume.frames tokens = List.range' (snapshot + 1) (Resume.frames tokens).length
  complete : feed.live = true → snapshot + (Resume.frames tokens).length = feed.last ∨
    feed.closing = true ∨ feed.fenced = true

structure Sound (feed : Feed) : Prop where
  gapless : Gapless feed.past
  bound : ∀ sequence, .frame sequence ∈ feed.queue → sequence ≤ feed.last
  quiet : ∀ token ∈ feed.queue, token.isResult = false
  wired : feed.wired = true → feed.wanted = true
  unwired : feed.wanted = true → feed.wired = true ∨ feed.closing = true
  credited : feed.renewing.isSome = true → feed.credited = true
  attached : feed.renewing = none → feed.credited = true →
    ∃ snapshot after, since feed.past = some (some snapshot, after)
  follows : feed.renewing = none → ∀ snapshot after,
    since feed.past = some (some snapshot, after) → feed.Follows snapshot (after ++ feed.queue)
  fenced : feed.renewing = none → feed.fenced = true → feed.closing = true ∨
    ∃ snapshot after, since feed.past = some (some snapshot, after) ∧
      FenceLast (after ++ feed.queue)
  refenced : feed.renewing.isSome = true → feed.fenced = true → feed.closing = true ∨
    FenceLast feed.queue
  again : ∀ answer, feed.renewing = some (true, answer) →
    (feed.wanted = true ∨ feed.closing = true) ∧ ∀ snapshot after, since feed.past = some (some snapshot, after) →
      feed.Announced snapshot after
  answered : ∀ before snapshot, feed.renewing = some (before, some snapshot) →
    feed.Follows snapshot (uncovered snapshot feed.queue)

section Steps

variable {feed feed' : Feed} {snapshot : Nat} {after tokens : List Token}

theorem Follows.gapless (h : feed.Follows snapshot (after ++ tokens)) :
    ∃ count, Resume.frames after = List.range' (snapshot + 1) count := by
  have hframes := h.frames
  rw [frames_append] at hframes
  exact ⟨_, (range_split hframes).1⟩

section

variable (h : feed.Follows snapshot tokens)
include h

theorem Follows.push (hlive : feed.live = true)
    (hlistens : feed.listens = true) {next : Feed} (hlast : next.last = feed.last + 1) :
    next.Follows snapshot (tokens ++ [.frame (feed.last + 1)]) := by
  have hbound := h.bound
  have hcomplete : snapshot + (Resume.frames tokens).length = feed.last := by
    unfold listens at hlistens
    simp only [and_eq_true, not_eq_true'] at hlistens
    rcases h.complete hlive with hend | hclosing | hfenced
    · exact hend
    · cases hlistens.1.1.symm.trans hclosing
    · cases hlistens.1.2.symm.trans hfenced
  have hlength : (Resume.frames (tokens ++ [.frame (feed.last + 1)])).length =
      (Resume.frames tokens).length + 1 := by simp
  constructor
  · rw [hlength, hlast]
    omega
  · rw [hlength, frames_append, frames_frame, range'_1_concat, ← h.frames,
      show snapshot + 1 + (Resume.frames tokens).length = feed.last + 1 by omega]
  · intro _
    rw [hlength, hlast]
    omega

theorem Follows.miss {next : Feed} {more : List Token}
    (hmore : Resume.frames more = []) (hlast : feed.last ≤ next.last)
    (hmissed : next.live = true → next.closing = true ∨ next.fenced = true) :
    next.Follows snapshot (tokens ++ more) := by
  have hsame : Resume.frames (tokens ++ more) = Resume.frames tokens := by
    rw [frames_append, hmore, append_nil]
  have hbound := h.bound
  constructor
  · rw [hsame]
    omega
  · rw [hsame]
    exact h.frames
  · exact fun hlive => .inr (hmissed hlive)

theorem Follows.same {next : Feed}
    (hlast : next.last = feed.last) (hlive : next.live = true → feed.live = true)
    (hclosing : feed.closing = true → next.closing = true)
    (hfenced : feed.fenced = true → next.fenced = true) : next.Follows snapshot tokens where
  bound := hlast ▸ h.bound
  frames := h.frames
  complete hnext := by
    rw [hlast]
    exact (h.complete (hlive hnext)).imp_right (Or.imp hclosing hfenced)

end

theorem Sound.unheard (h : feed.Sound) (hskipped : feed.wired = false ∨ feed.listens = false)
    (hlive : feed.live = true) : feed.closing = true ∨ feed.fenced = true := by
  unfold live at hlive
  rw [and_eq_true] at hlive
  rcases hskipped with hwired | hlistens
  · rcases h.unwired hlive.2 with hwired' | hclosing
    · cases hwired.symm.trans hwired'
    · exact .inl hclosing
  unfold listens at hlistens
  rw [hlive.1, Bool.and_true] at hlistens
  cases hclosing : feed.closing with
  | true => exact .inl rfl
  | false =>
    right
    simpa [hclosing] using hlistens

theorem Announced.more (h : feed.Announced snapshot after) {next : Feed}
    (hqueue : ∀ token ∈ feed.queue, token ∈ next.queue)
    (hclosing : feed.closing = true → next.closing = true)
    (hnew : ∀ sequence, feed.last < sequence → sequence ≤ next.last →
      .frame sequence ∈ next.queue ∨ next.closing = true ∨ .fence ∈ next.queue) :
    next.Announced snapshot after := by
  obtain ⟨count, hframes, hmissing⟩ := h
  refine ⟨count, hframes, ?_⟩
  rcases hmissing with hall | hends | hfence | hlast
  · by_cases hannounced : next.closing = true ∨ .fence ∈ next.queue
    · rcases hannounced with hends | hfence
      · exact .inr (.inl hends)
      · exact .inr (.inr (.inl hfence))
    · left
      intro sequence hafter hupto
      rcases Nat.lt_or_ge feed.last sequence with hlater | hearlier
      · exact (hnew sequence hlater hupto).resolve_right hannounced
      · exact hqueue _ (hall sequence hafter hearlier)
  · exact .inr (.inl (hclosing hends))
  · exact .inr (.inr (.inl (hqueue _ hfence)))
  · exact .inr (.inr (.inr hlast))

theorem Sound.announced (h : feed.Sound) (hidle : feed.renewing = none)
    (hlive : feed.live = true) (hsince : since feed.past = some (some snapshot, after)) :
    feed.Announced snapshot after := by
  have hfoll := h.follows hidle snapshot after hsince
  have hframes := hfoll.frames
  rw [frames_append] at hframes
  obtain ⟨hafter, hqueue⟩ := range_split hframes
  refine ⟨_, hafter, ?_⟩
  rcases hfoll.complete hlive with hend | hclosing | hfenced
  · left
    intro sequence hlater hupto
    apply mem_frames.mp
    rw [hqueue, mem_range'_1]
    rw [frames_append, length_append] at hend
    omega
  · exact .inr (.inl hclosing)
  · rcases h.fenced hidle hfenced with hclosing | ⟨snapshot', after', hsince', hlast⟩
    · exact .inr (.inl hclosing)
    rw [hsince] at hsince'
    cases hsince'
    rcases hlast.split with hpast | hwaits
    · exact .inr (.inr (.inr hpast))
    · exact .inr (.inr (.inl hwaits))

theorem gapless_push (h : Gapless feed.past) {token : Token}
    (hnew : ∀ snapshot after, since (feed.past ++ [token]) = some (some snapshot, after) →
      ∃ count, Resume.frames after = List.range' (snapshot + 1) count) :
    Gapless (feed.past ++ [token]) := by
  intro early hearly snapshot after hsince
  rcases prefix_concat_iff.mp hearly with rfl | hold
  · exact hnew snapshot after hsince
  · exact h early hold snapshot after hsince

theorem listens_iff : feed.listens = true ↔
    feed.closing = false ∧ feed.fenced = false ∧ feed.credited = true := by
  unfold listens
  rw [and_eq_true, and_eq_true, not_eq_true', not_eq_true', and_assoc]

theorem Sound.live (h : feed.Sound) (hwired : feed.wired = true) (hlistens : feed.listens = true) :
    feed.live = true := by
  unfold Feed.live
  rw [(listens_iff.mp hlistens).2.2, h.wired hwired]
  rfl

theorem Sound.live_again (h : feed.Sound) {answer : Option Nat}
    (hrenewing : feed.renewing = some (true, answer)) : feed.live = true ∨ feed.closing = true := by
  refine (h.again answer hrenewing).1.imp_left fun hwanted => ?_
  unfold Feed.live
  rw [hwanted, h.credited (by rw [hrenewing]; rfl)]
  rfl

theorem uncovered_push {more : List Token} (hmore : uncovered snapshot more = more) :
    uncovered snapshot (tokens ++ more) = uncovered snapshot tokens ++ more := by
  unfold uncovered at hmore ⊢
  rw [filter_append, hmore]

section

variable (h : feed.Sound)
include h

theorem Sound.skipped (hskipped : feed.wired = false ∨ feed.listens = false) :
    ({ feed with last := feed.last + 1 } : Feed).Sound := by
  have hmiss : ∀ snapshot tokens, feed.Follows snapshot tokens →
      ({ feed with last := feed.last + 1 } : Feed).Follows snapshot tokens := by
    intro snapshot tokens hfoll
    rw [← append_nil tokens]
    exact hfoll.miss rfl (Nat.le_succ _) (h.unheard hskipped)
  refine { h with bound := ?_, follows := ?_, again := ?_, answered := ?_ }
  · exact fun sequence hmem => Nat.le_succ_of_le (h.bound sequence hmem)
  · exact fun hidle snapshot after hsince => hmiss _ _ (h.follows hidle snapshot after hsince)
  · intro answer hrenewing
    refine ⟨(h.again answer hrenewing).1, fun snapshot after hsince => ?_⟩
    apply ((h.again answer hrenewing).2 snapshot after hsince).more
    · exact fun token hmem => hmem
    · exact fun hclosing => hclosing
    · intro sequence _ _
      rcases (h.live_again hrenewing).elim (h.unheard hskipped) .inl with hclosing | hfenced
      · exact .inr (.inl hclosing)
      rcases h.refenced (by rw [hrenewing]; rfl) hfenced with hclosing | hlast
      · exact .inr (.inl hclosing)
      · exact .inr (.inr hlast.mem)
  · exact fun before snapshot hrenewing => hmiss _ _ (h.answered before snapshot hrenewing)

theorem Sound.queued (hwired : feed.wired = true) (hlistens : feed.listens = true) : ({ feed with
      last := feed.last + 1
      queue := feed.queue ++ [.frame (feed.last + 1)] } : Feed).Sound := by
  have hlive := h.live hwired hlistens
  have hopen := (listens_iff.mp hlistens).2.1
  refine { h with
    bound := ?_
    quiet := ?_
    follows := ?_
    fenced := fun _ hfenced => nomatch hopen.symm.trans hfenced
    refenced := fun _ hfenced => nomatch hopen.symm.trans hfenced
    again := ?_
    answered := ?_ }
  · intro sequence hmem
    rcases mem_append.mp hmem with hold | hnew
    · exact Nat.le_succ_of_le (h.bound sequence hold)
    · cases mem_singleton.mp hnew
      exact le_rfl
  · intro token hmem
    rcases mem_append.mp hmem with hold | hnew
    · exact h.quiet token hold
    · rw [mem_singleton.mp hnew]
      rfl
  · intro hidle snapshot after hsince
    rw [← append_assoc]
    exact (h.follows hidle snapshot after hsince).push hlive hlistens rfl
  · intro answer hrenewing
    refine ⟨(h.again answer hrenewing).1, fun snapshot after hsince => ?_⟩
    apply ((h.again answer hrenewing).2 snapshot after hsince).more
    · exact fun token hmem => mem_append_left _ hmem
    · exact fun hclosing => hclosing
    · intro sequence hlater hupto
      have hnext : sequence = feed.last + 1 := Nat.le_antisymm hupto hlater
      exact .inl (mem_append_right _ (by rw [hnext]; exact mem_cons_self))
  · intro before snapshot hrenewing
    have hfoll := h.answered before snapshot hrenewing
    have hcov : snapshot < feed.last + 1 :=
      Nat.lt_succ_of_le (Nat.le_trans (Nat.le_add_right _ _) hfoll.bound)
    show Follows _ snapshot (uncovered snapshot (feed.queue ++ [.frame (feed.last + 1)]))
    rw [uncovered_push (by simp [uncovered, hcov])]
    exact hfoll.push hlive hlistens rfl

theorem Sound.replaced (hlistens : feed.listens = true) : ({ feed with
      last := feed.last + 1
      queue := feed.queue ++ [.fence]
      fenced := true } : Feed).Sound := by
  have hmiss : ∀ snapshot tokens, feed.Follows snapshot tokens → ({ feed with
      last := feed.last + 1
      queue := feed.queue ++ [.fence]
      fenced := true } : Feed).Follows snapshot (tokens ++ [.fence]) := by
    intro snapshot tokens hfoll
    exact hfoll.miss rfl (Nat.le_succ _) fun _ => .inr rfl
  refine { h with
    bound := ?_
    quiet := ?_
    follows := ?_
    fenced := ?_
    refenced := fun _ _ => .inr (fenceLast_push feed.queue)
    again := ?_
    answered := ?_ }
  · intro sequence hmem
    rcases mem_append.mp hmem with hold | hnew
    · exact Nat.le_succ_of_le (h.bound sequence hold)
    · cases mem_singleton.mp hnew
  · intro token hmem
    rcases mem_append.mp hmem with hold | hnew
    · exact h.quiet token hold
    · rw [mem_singleton.mp hnew]
      rfl
  · intro hidle snapshot after hsince
    rw [← append_assoc]
    exact hmiss _ _ (h.follows hidle snapshot after hsince)
  · intro hidle _
    obtain ⟨snapshot, after, hsince⟩ := h.attached hidle (listens_iff.mp hlistens).2.2
    refine .inr ⟨snapshot, after, hsince, ?_⟩
    rw [← append_assoc]
    exact fenceLast_push _
  · intro answer hrenewing
    refine ⟨(h.again answer hrenewing).1, fun snapshot after hsince => ?_⟩
    apply ((h.again answer hrenewing).2 snapshot after hsince).more
    · exact fun token hmem => mem_append_left _ hmem
    · exact fun hclosing => hclosing
    · exact fun _ _ _ => .inr (.inr (fenceLast_push feed.queue).mem)
  · intro before snapshot hrenewing
    show Follows _ snapshot (uncovered snapshot (feed.queue ++ [.fence]))
    rw [uncovered_push rfl]
    exact hmiss _ _ (h.answered before snapshot hrenewing)

/-- A feed that is closing owes nothing. -/
theorem Sound.closes {last : Nat} {fenced wanted wired : Bool}
    (hlast : feed.last ≤ last) (hwired : wired = true → wanted = true) : ({ feed with
      last := last
      closing := true
      fenced := fenced
      wanted := wanted
      wired := wired } : Feed).Sound := by
  have hmiss : ∀ snapshot tokens, feed.Follows snapshot tokens → ({ feed with
      last := last
      closing := true
      fenced := fenced
      wanted := wanted
      wired := wired } : Feed).Follows snapshot tokens :=
    fun _ _ hfoll => ⟨hfoll.bound.trans hlast, hfoll.frames, fun _ => .inr (.inl rfl)⟩
  refine { h with
    bound := fun sequence hmem => (h.bound sequence hmem).trans hlast
    wired := hwired
    unwired := fun _ => .inr rfl
    follows := fun hidle snapshot after hsince => hmiss _ _ (h.follows hidle snapshot after hsince)
    fenced := fun _ _ => .inl rfl
    refenced := fun _ _ => .inl rfl
    again := ?_
    answered := fun before snapshot hrenewing => hmiss _ _ (h.answered before snapshot hrenewing) }
  intro answer hrenewing
  refine ⟨.inr rfl, fun snapshot after hsince => ?_⟩
  apply ((h.again answer hrenewing).2 snapshot after hsince).more
  · exact fun token hmem => hmem
  · exact fun _ => rfl
  · exact fun _ _ _ => .inr (.inl rfl)

theorem Sound.idle {closing wired : Bool} (hclosing : feed.closing = true → closing = true)
    (hwired : wired = feed.wired ∨ wired = false ∧ closing = true) :
    ({ feed with closing := closing, wired := wired } : Feed).Sound := by
  have hsame : ∀ snapshot tokens, feed.Follows snapshot tokens →
      ({ feed with closing := closing, wired := wired } : Feed).Follows snapshot tokens :=
    fun _ _ hfoll => hfoll.same rfl (fun hlive => hlive) hclosing fun hfenced => hfenced
  refine { h with
    wired := ?_
    unwired := ?_
    follows := fun hidle snapshot after hsince => hsame _ _ (h.follows hidle snapshot after hsince)
    fenced := fun hidle hfenced => (h.fenced hidle hfenced).imp_left hclosing
    refenced := fun hsome hfenced => (h.refenced hsome hfenced).imp_left hclosing
    again := ?_
    answered := fun before snapshot hrenewing => hsame _ _ (h.answered before snapshot hrenewing) }
  · intro hnext
    rcases hwired with rfl | ⟨rfl, -⟩
    · exact h.wired hnext
    · cases hnext
  · intro hwanted
    rcases hwired with rfl | ⟨-, hends⟩
    · exact (h.unwired hwanted).imp_right hclosing
    · exact .inr hends
  · intro answer hrenewing
    refine ⟨(h.again answer hrenewing).1.imp_right hclosing, fun snapshot after hsince => ?_⟩
    apply ((h.again answer hrenewing).2 snapshot after hsince).more
    · exact fun token hmem => hmem
    · exact hclosing
    · exact fun sequence hlater hupto => absurd hupto (Nat.not_le.mpr hlater)

theorem Sound.renew (wanted : Bool) (hidle : feed.renewing = none)
    (hwanted : feed.wanted = true → wanted = true) : ({ feed with
      renewing := some (feed.live, none)
      credited := true
      fenced := false
      wanted := wanted
      wired := feed.wired || wanted } : Feed).Sound := by
  constructor
  · exact h.gapless
  · exact h.bound
  · exact h.quiet
  · intro hwired
    rcases or_eq_true_iff.mp hwired with hbef | hnow
    · exact hwanted (h.wired hbef)
    · exact hnow
  · exact fun hnow => .inl (or_eq_true_iff.mpr (.inr hnow))
  · exact fun _ => rfl
  · exact nofun
  · exact nofun
  · exact nofun
  · exact nofun
  · intro answer hrenewing
    have hlive : feed.live = true := (Prod.mk.inj (Option.some.inj hrenewing)).1
    have hwas : feed.wanted = true := (and_eq_true_iff.mp hlive).2
    refine ⟨.inl (hwanted hwas), fun snapshot after hsince => ?_⟩
    apply (h.announced hidle hlive hsince).more
    · exact fun token hmem => hmem
    · exact fun hclosing => hclosing
    · exact fun sequence hlater hupto => absurd hupto (Nat.not_le.mpr hlater)
  · exact fun before snapshot hrenewing => nomatch hrenewing

end

section

variable (h : feed.Sound)
include h

theorem Sound.answer {before : Bool}
    (hrenewing : feed.renewing = some (before, none)) :
    ({ feed with renewing := some (before, some feed.last) } : Feed).Sound := by
  have hnone : frames (uncovered feed.last feed.queue) = [] := by
    rw [frames_uncovered, filter_eq_nil_iff]
    intro sequence hmem
    rw [decide_eq_true_eq]
    exact Nat.not_lt.mpr (h.bound sequence (mem_frames.mp hmem))
  constructor
  · exact h.gapless
  · exact h.bound
  · exact h.quiet
  · exact h.wired
  · exact h.unwired
  · exact fun _ => h.credited (by rw [hrenewing]; rfl)
  · exact nofun
  · exact nofun
  · exact nofun
  · exact fun _ => h.refenced (by rw [hrenewing]; rfl)
  · intro answer hanswer
    have htrue : before = true := (Prod.mk.inj (Option.some.inj hanswer)).1
    subst htrue
    exact h.again none hrenewing
  · intro had snapshot hanswer
    have hsnap : feed.last = snapshot := Option.some.inj (Prod.mk.inj (Option.some.inj hanswer)).2
    subst hsnap
    constructor
    · rw [hnone]
      exact le_rfl
    · rw [hnone]
      rfl
    · intro _
      rw [hnone]
      exact .inl rfl

theorem Sound.renewed {before : Bool} {snapshot : Nat}
    (hrenewing : feed.renewing = some (before, some snapshot)) : ({ feed with
      renewing := none
      past := feed.past ++ [.result (some snapshot)]
      queue := uncovered snapshot feed.queue } : Feed).Sound := by
  have hsome : feed.renewing.isSome = true := by rw [hrenewing]; rfl
  have hwindow : since (feed.past ++ [.result (some snapshot)]) = some (some snapshot, []) :=
    since_append _
  constructor
  · apply gapless_push h.gapless
    intro other after hsince
    rw [hwindow] at hsince
    cases hsince
    exact ⟨0, rfl⟩
  · exact fun sequence hmem => h.bound sequence (mem_of_mem_filter hmem)
  · exact fun token hmem => h.quiet token (mem_of_mem_filter hmem)
  · exact h.wired
  · exact h.unwired
  · exact nofun
  · exact fun _ _ => ⟨snapshot, [], hwindow⟩
  · intro _ other after hsince
    rw [hwindow] at hsince
    cases hsince
    exact (h.answered before snapshot hrenewing).same rfl (fun hlive => hlive)
      (fun hclosing => hclosing) fun hfenced => hfenced
  · intro _ hfenced
    exact (h.refenced hsome hfenced).imp_right fun hlast =>
      ⟨snapshot, [], hwindow, hlast.uncovered snapshot⟩
  · exact nofun
  · exact fun answer hnever => nomatch hnever
  · exact fun had answer hnever => nomatch hnever

theorem Sound.refused : ({ feed with
      renewing := none
      past := feed.past ++ [.result none]
      credited := false
      fenced := false
      wanted := false
      wired := false } : Feed).Sound := by
  have hwindow : since (feed.past ++ [.result none]) = some (none, []) := since_append _
  constructor
  · apply gapless_push h.gapless
    intro other after hsince
    rw [hwindow] at hsince
    cases hsince
  · exact h.bound
  · exact h.quiet
  · exact nofun
  · exact nofun
  · exact nofun
  · exact nofun
  · intro _ other after hsince
    rw [hwindow] at hsince
    cases hsince
  · exact nofun
  · exact nofun
  · exact fun answer hnever => nomatch hnever
  · exact fun had answer hnever => nomatch hnever

theorem Sound.dropped (hidle : feed.renewing = none) : ({ feed with
      credited := false
      fenced := false
      wanted := false
      wired := false } : Feed).Sound := by
  refine { h with
    wired := nofun
    unwired := nofun
    credited := fun hsome => ?_
    attached := nofun
    follows := fun _ snapshot after hsince => ?_
    fenced := nofun
    refenced := nofun
    again := fun answer hrenewing => nomatch hidle.symm.trans hrenewing
    answered := fun before snapshot hrenewing => nomatch hidle.symm.trans hrenewing }
  · rw [hidle] at hsome
    cases hsome
  · have hfoll := h.follows hidle snapshot after hsince
    exact ⟨hfoll.bound, hfoll.frames, nofun⟩

/-- What is read moves from the queue to the past. -/
theorem Sound.read (hidle : feed.renewing = none) {token : Token}
    {rest : List Token} (hqueue : feed.queue = token :: rest) :
    ({ feed with past := feed.past ++ [token], queue := rest } : Feed).Sound := by
  have hmem : token ∈ feed.queue := hqueue ▸ mem_cons_self
  have hwindow : ∀ answer after, since (feed.past ++ [token]) = some (answer, after) →
      ∃ early, since feed.past = some (answer, early) ∧ after ++ rest = early ++ feed.queue ∧
        after = early ++ [token] := by
    intro answer after hsince
    rw [since_append] at hsince
    have hquiet := h.quiet token hmem
    cases hbef : since feed.past with
    | none =>
      rw [hbef] at hsince
      cases token with
      | result snapshot => cases hquiet
      | frame | fence => cases hsince
    | some window =>
      obtain ⟨answer', early⟩ := window
      have htoken := since_token hquiet hbef
      rw [since_append, hsince] at htoken
      cases htoken
      exact ⟨early, rfl, by rw [hqueue]; simp, rfl⟩
  have hfollowing : ∀ snapshot after, since (feed.past ++ [token]) = some (some snapshot, after) →
      feed.Follows snapshot (after ++ rest) := by
    intro snapshot after hsince
    obtain ⟨early, hearly, hmoved, -⟩ := hwindow _ _ hsince
    rw [hmoved]
    exact h.follows hidle snapshot early hearly
  refine { h with
    gapless := ?_
    bound := fun sequence hrest => h.bound sequence (hqueue ▸ mem_cons_of_mem token hrest)
    quiet := fun other hrest => h.quiet other (hqueue ▸ mem_cons_of_mem token hrest)
    attached := ?_
    follows := ?_
    fenced := ?_
    refenced := ?_
    again := fun answer hrenewing => nomatch hidle.symm.trans hrenewing
    answered := fun before snapshot hrenewing => nomatch hidle.symm.trans hrenewing }
  · exact gapless_push h.gapless fun snapshot after hsince =>
      (hfollowing snapshot after hsince).gapless
  · intro _ hcredited
    obtain ⟨snapshot, after, hsince⟩ := h.attached hidle hcredited
    exact ⟨snapshot, after ++ [token], since_token (h.quiet token hmem) hsince⟩
  · intro _ snapshot after hsince
    exact (hfollowing snapshot after hsince).same rfl (fun hlive => hlive)
      (fun hclosing => hclosing) fun hfenced => hfenced
  · intro _ hfenced
    rcases h.fenced hidle hfenced with hclosing | ⟨snapshot, after, hsince, hlast⟩
    · exact .inl hclosing
    refine .inr ⟨snapshot, after ++ [token], since_token (h.quiet token hmem) hsince, ?_⟩
    rw [hqueue] at hlast
    rw [append_assoc]
    exact hlast
  · intro hsome
    rw [hidle] at hsome
    cases hsome

end

theorem sound_start (last : Nat) :
    (⟨[], [], last, none, false, false, false, false, false⟩ : Feed).Sound where
  gapless early hearly snapshot after hsince := by
    rw [prefix_nil.mp hearly] at hsince
    cases hsince
  bound := nofun
  quiet := nofun
  wired := nofun
  unwired := nofun
  credited := nofun
  attached := nofun
  follows := nofun
  fenced := nofun
  refenced := nofun
  again := nofun
  answered := nofun

inductive Step (feed : Feed) : Feed → Prop where
  | idle {closing wired : Bool} (hclosing : feed.closing = true → closing = true)
      (hwired : wired = feed.wired ∨ wired = false ∧ closing = true) :
      Step feed { feed with closing := closing, wired := wired }
  | skipped (hskipped : feed.wired = false ∨ feed.listens = false) :
      Step feed { feed with last := feed.last + 1 }
  | queued (hwired : feed.wired = true) (hlistens : feed.listens = true) :
      Step feed { feed with last := feed.last + 1, queue := feed.queue ++ [.frame (feed.last + 1)] }
  | replaced (hwired : feed.wired = true) (hlistens : feed.listens = true) :
      Step feed { feed with last := feed.last + 1, queue := feed.queue ++ [.fence], fenced := true }
  | overflowed (hwired : feed.wired = true) (hlistens : feed.listens = true) :
      Step feed { feed with last := feed.last + 1, closing := true, fenced := true }
  | renew (wanted : Bool) (hidle : feed.renewing = none)
      (hwanted : feed.wanted = true → wanted = true) :
      Step feed { feed with
        renewing := some (feed.live, none)
        credited := true
        fenced := false
        wanted := wanted
        wired := feed.wired || wanted }
  | answered {before : Bool} (hrenewing : feed.renewing = some (before, none)) :
      Step feed { feed with renewing := some (before, some feed.last) }
  | renewed {before : Bool} {snapshot : Nat}
      (hrenewing : feed.renewing = some (before, some snapshot)) :
      Step feed { feed with
        renewing := none
        past := feed.past ++ [.result (some snapshot)]
        queue := uncovered snapshot feed.queue }
  | refused {renewing : Bool × Option Nat} (hrenewing : feed.renewing = some renewing) :
      Step feed { feed with
        renewing := none
        past := feed.past ++ [.result none]
        credited := false
        fenced := false
        wanted := false
        wired := false }
  | dropped (hidle : feed.renewing = none) :
      Step feed { feed with credited := false, fenced := false, wanted := false, wired := false }
  | withdrawn : Step feed { feed with closing := true, wanted := false, wired := false }
  | read {token : Token} {rest : List Token} (hidle : feed.renewing = none)
      (hqueue : feed.queue = token :: rest) :
      Step feed { feed with past := feed.past ++ [token], queue := rest }

theorem Step.sound (h : feed.Sound) (hstep : feed.Step feed') : feed'.Sound := by
  cases hstep with
  | idle hclosing hwired => exact h.idle hclosing hwired
  | skipped hskipped => exact h.skipped hskipped
  | queued hwired hlistens => exact h.queued hwired hlistens
  | replaced hwired hlistens => exact h.replaced hlistens
  | overflowed hwired hlistens => exact h.closes (Nat.le_succ _) h.wired
  | renew wanted hidle hwanted => exact h.renew wanted hidle hwanted
  | answered hrenewing => exact h.answer hrenewing
  | renewed hrenewing => exact h.renewed hrenewing
  | refused hrenewing => exact h.refused
  | dropped hidle => exact h.dropped hidle
  | withdrawn => exact h.closes le_rfl nofun
  | read hidle hqueue => exact h.read hidle hqueue

end Steps

end Feed

end Yaade.Library.Resume
