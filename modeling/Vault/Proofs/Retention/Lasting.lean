import Vault.Proofs.Retention.Patrol
import Vault.Proofs.Time
import Vault.Settings

/-!
# Whether a sweeper lasts

A sweeper can be lost, and then whoever waits for it is told so in place of its report. That
happens when it starts or not at all: a sweeper that goes on is neither lost nor found
(`Vault.Retention.lasts_step`), and what the others of its crew do does not touch it
(`Vault.Retention.Crew.Sole`). At the start it depends on whether the first tick is an instant.

Settings that were looked at and found good leave that open. They exclude an interval of zero,
and an interval that leads past the greatest instant they let through. So a server with good
settings loses its sweeper exactly in that case (`Vault.Settings.sweeper_lost_iff_beyond_instants`).
In all others it hands over its report when the signal is raised: under a raised signal everybody
in the crew has a few steps left, and the steps that a crew is given are more than those.
-/

namespace Vault

namespace Retention

variable {σ : Type}

/-! ### A sweeper that goes on -/

/-- The report of a sweeper, with the sweep that is under way. -/
def Sweeper.total (s : Sweeper) : Report :=
  match s.stage with
  | .sweeping _ _ _ r => s.report.add r
  | _ => s.report

/-- How often a sweeper has to go on until it has stopped, if it ever does. -/
def Sweeper.stepsLeft (s : Sweeper) : ℕ := (Patrol.toStop? s.stage).getD 0

/-- Whether the sweep under way, if there is one, ends before a deadline. -/
def Sweeper.endsBefore (deadline : ℕ) (s : Sweeper) : Bool :=
  match s.stage with
  | .sweeping _ (some stop) _ _ => goesOff stop < deadline
  | .sweeping _ none _ _ => false
  | _ => true

/-- Two states of one sweeper: it goes by the same policy, and is lost in both or in neither. -/
structure Lasts (s s' : Sweeper) : Prop where
  policy : s'.policy = s.policy
  lost : s'.stage = .lost ↔ s.stage = .lost

theorem Lasts.refl (s : Sweeper) : Lasts s s := ⟨rfl, Iff.rfl⟩

theorem Lasts.trans {s s' s'' : Sweeper} (h : Lasts s s') (h' : Lasts s' s'') : Lasts s s'' :=
  ⟨h'.policy.trans h.policy, h'.lost.trans h.lost⟩

section Step

variable [Store σ] (pace : Pace) (t : ℕ) (s : Sweeper) (h : Host σ)

/-- **Everything a sweeper can become when it goes on.** -/
theorem step_cases :
    (∃ due, s.stage = .idle due ∧ h.signal.cancelled = true ∧
      (step pace t s h).1 = { s with stage := .stopped }) ∨
    (∃ due c r, s.stage = .idle due ∧ h.signal.cancelled = false ∧
      (step pace t s h).1 = Patrol.deleting s pace t due c r) ∨
    (∃ due stop c r, s.stage = .sweeping due (some stop) c r ∧
      (step pace t s h).1 = { s with stage := .idle due, report := s.report.add r }) ∨
    (∀ cancelled now, due? cancelled now s = none) ∧ (step pace t s h).1 = s := by
  rcases hstage : s.stage with due | ⟨due, _ | stop, c, r⟩ | _ | _ <;>
    simp only [step, due?, hstage]
  · cases hsignal : h.signal.cancelled with
    | true => exact Or.inl ⟨due, rfl, rfl, rfl⟩
    | false =>
      refine Or.inr (Or.inl ⟨due, cutoff s.policy.maxAge h.now,
        (h.deleteBefore (cutoff s.policy.maxAge h.now)).1, rfl, rfl, ?_⟩)
      rcases pace with _ | _ | ms <;> rfl
  · simp
  · exact Or.inr (Or.inr (Or.inl ⟨due, stop, c, r, rfl, rfl⟩))
  · simp
  · simp

theorem signal_step : (step pace t s h).2.signal = h.signal := by
  have hlog (c : Timestamp) (r : Except StoreError ℕ) (g : Host σ) :
      (recordFailure r (recordSweep c r g)).signal = g.signal := by
    obtain ⟨log, hlog⟩ := exists_log c r g
    rw [hlog]
  rcases hstage : s.stage with due | ⟨due, _ | stop, c, r⟩ | _ | _ <;> simp only [step, hstage]
  · cases hsignal : h.signal.cancelled with
    | true => rfl
    | false =>
      rcases pace with _ | _ | ms
      · rfl
      · exact hlog _ _ _
      · rfl
  · exact hlog c r h

/-- A deletion does not lose the sweeper that begins it. -/
theorem lasts_deleting {due : ℕ} (hstage : s.stage = .idle due) (c : Timestamp)
    (r : Except StoreError ℕ) : Lasts s (Patrol.deleting s pace t due c r) := by
  rcases pace with _ | _ | ms <;> exact ⟨rfl, by simp [Patrol.deleting, hstage]⟩

/-- **A sweeper that goes on is neither lost nor found.** -/
theorem lasts_step : Lasts s (step pace t s h).1 := by
  obtain ⟨due, hstage, -, hstep⟩ | ⟨due, c, r, hstage, -, hstep⟩ |
    ⟨due, stop, c, r, hstage, hstep⟩ | ⟨-, hstep⟩ := step_cases pace t s h
  · rw [hstep]
    exact ⟨rfl, by simp [hstage]⟩
  · rw [hstep]
    exact lasts_deleting pace t s hstage c r
  · rw [hstep]
    exact ⟨rfl, by simp [hstage]⟩
  · rw [hstep]
    exact Lasts.refl s

end Step

/-- **Under a raised signal** a sweeper that can go on gets nearer to its end, its report stays
what it will be, and no new sweep begins. -/
theorem step_cancelled [Store σ] (pace : Pace) {now t : ℕ} {s : Sweeper} {h : Host σ}
    (hsignal : h.signal.cancelled = true) (hdue : due? true now s = some t) (deadline : ℕ) :
    (step pace t s h).1.stepsLeft + 1 = s.stepsLeft ∧ (step pace t s h).1.total = s.total ∧
      (step pace t s h).1.endsBefore deadline := by
  obtain ⟨due, hstage, -, hstep⟩ | ⟨due, c, r, -, hnot, -⟩ | ⟨due, stop, c, r, hstage, hstep⟩ |
    ⟨hrests, hstep⟩ := step_cases pace t s h
  · rw [hstep]
    refine ⟨?_, ?_, ?_⟩
    · simp [Sweeper.stepsLeft, hstage, Patrol.toStop?]
    · simp [Sweeper.total, hstage]
    · simp [Sweeper.endsBefore]
  · rw [hsignal] at hnot
    cases hnot
  · rw [hstep]
    refine ⟨?_, ?_, ?_⟩
    · simp [Sweeper.stepsLeft, hstage, Patrol.toStop?]
    · simp [Sweeper.total, hstage]
    · simp [Sweeper.endsBefore]
  · rw [hrests] at hdue
    cases hdue

namespace Crew

/-! ### A sweeper among others -/

/-- The sweepers of a number. -/
def ofNumber (number : ℕ) (ws : List (ℕ × Sweeper)) : List Sweeper :=
  ws.filterMap fun w => if w.1 = number then some w.2 else none

@[simp] theorem ofNumber_cons (number : ℕ) (w : ℕ × Sweeper) (ws : List (ℕ × Sweeper)) :
    ofNumber number (w :: ws) =
      if w.1 = number then w.2 :: ofNumber number ws else ofNumber number ws := by
  rw [ofNumber, List.filterMap_cons]
  split_ifs <;> rfl

theorem ofNumber_append (number : ℕ) (ws vs : List (ℕ × Sweeper)) :
    ofNumber number (ws ++ vs) = ofNumber number ws ++ ofNumber number vs :=
  List.filterMap_append

theorem lookup_eq_head? (number : ℕ) (ws : List (ℕ × Sweeper)) :
    ws.lookup number = (ofNumber number ws).head? := by
  induction ws with
  | nil => rfl
  | cons w ws ih =>
    obtain ⟨m, w⟩ := w
    rw [List.lookup_cons, ofNumber_cons]
    by_cases hm : m = number
    · simp [hm]
    · have hne : (number == m) = false := beq_eq_false_iff_ne.mpr (Ne.symm hm)
      rw [hne, if_neg hm]
      exact ih

/-- **The only sweeper of its number.** -/
def Sole (number : ℕ) (c : Crew) (w : Sweeper) : Prop :=
  ofNumber number c.sweepers = [w]

theorem Sole.heard_eq {number : ℕ} {c : Crew} {w : Sweeper} (h : c.Sole number w) :
    c.heard? number = Retention.heard? w := by
  rw [Crew.heard?, lookup_eq_head?, h]
  rfl

theorem pick?_eq_some {cancelled : Bool} {now t : ℕ} {ws : List (ℕ × Sweeper)}
    {w : ℕ × Sweeper} {others : List (ℕ × Sweeper)}
    (h : pick? cancelled now t ws = some (w, others)) :
    due? cancelled now w.2 = some t ∧ ws.Perm (w :: others) := by
  induction ws generalizing w others with
  | nil => cases h
  | cons v ws ih =>
    rw [pick?] at h
    split_ifs at h with hdue
    · cases h
      exact ⟨hdue, List.Perm.refl _⟩
    · obtain ⟨⟨u, us⟩, hpick, hu⟩ := Option.map_eq_some_iff.mp h
      cases hu
      obtain ⟨hdue', hperm⟩ := ih hpick
      exact ⟨hdue', (hperm.cons v).trans (List.Perm.swap w v us)⟩

theorem pick?_isSome {cancelled : Bool} {now t : ℕ} {ws : List (ℕ × Sweeper)} {w : ℕ × Sweeper}
    (hw : w ∈ ws) (hdue : due? cancelled now w.2 = some t) :
    (pick? cancelled now t ws).isSome := by
  induction ws with
  | nil => cases hw
  | cons v ws ih =>
    rw [pick?]
    split_ifs with hv
    · rfl
    · rcases List.mem_cons.mp hw with rfl | hw
      · exact absurd hdue hv
      · rw [Option.isSome_map]
        exact ih hw

theorem putBack_perm (cancelled : Bool) (t : ℕ) (w : ℕ × Sweeper) (others : List (ℕ × Sweeper)) :
    (putBack cancelled t w others).Perm (w :: others) := by
  rw [putBack]
  split_ifs
  · exact List.Perm.refl _
  · exact List.perm_append_singleton w others

section Run

variable [Store σ]

/-- **One of a crew goes on**, before the horizon: the others are as they were, and it is found
among them wherever it was put. -/
structure GoesOn (pace : Pace) (before : ℕ) (c : Crew) (h : Host σ) (c' : Crew) (h' : Host σ)
    (number : ℕ) (w : Sweeper) (others : List (ℕ × Sweeper)) : Prop where
  due : due? h.signal.cancelled c.now w = some c'.now
  inTime : c'.now < before
  was : c.sweepers.Perm ((number, w) :: others)
  becomes : c'.sweepers.Perm ((number, (step pace c'.now w h).1) :: others)
  host : h' = (step pace c'.now w h).2

/-- **A crew is at rest or one of it goes on.** -/
theorem run_succ_cases (pace : Pace) (awaited : Option ℕ) (deadline fuel : ℕ) (c : Crew)
    (h : Host σ) :
    (run pace awaited deadline (fuel + 1) c h = (c, h) ∧ ∀ w ∈ c.sweepers, ∀ t,
      due? h.signal.cancelled c.now w.2 = some t → c.horizon awaited deadline ≤ t) ∨
    ∃ c' h' number w others, GoesOn pace (c.horizon awaited deadline) c h c' h' number w others ∧
      run pace awaited deadline (fuel + 1) c h = run pace awaited deadline fuel c' h' := by
  rw [run]
  rcases hsoonest : c.soonest? h.signal.cancelled with _ | t
  · refine Or.inl ⟨rfl, fun w hw t ht => ?_⟩
    rw [soonest?, List.min?_eq_none_iff, List.filterMap_eq_nil_iff] at hsoonest
    rw [hsoonest w hw] at ht
    cases ht
  · rw [soonest?, List.min?_eq_some_iff] at hsoonest
    obtain ⟨hmem, hleast⟩ := hsoonest
    by_cases htime : t < c.horizon awaited deadline
    · obtain ⟨v, hv, hdue⟩ := List.mem_filterMap.mp hmem
      obtain ⟨⟨⟨number, w⟩, others⟩, hpick⟩ := Option.isSome_iff_exists.mp (pick?_isSome hv hdue)
      obtain ⟨hw, hperm⟩ := pick?_eq_some hpick
      simp only [if_pos htime, hpick]
      refine Or.inr ⟨⟨t, _⟩, _, number, w, others, ?_, rfl⟩
      exact ⟨hw, htime, hperm, putBack_perm _ _ _ _, rfl⟩
    · dsimp only
      rw [if_neg htime]
      refine Or.inl ⟨rfl, fun w hw u hu => ?_⟩
      exact (Nat.not_lt.mp htime).trans (hleast u (List.mem_filterMap.mpr ⟨w, hw, hu⟩))

/-- **What a number is found under when one of the crew has gone on**: the one that did, if it
has the number, or the same as before. -/
theorem Sole.goesOn {pace : Pace} {before number m : ℕ} {c c' : Crew} {h h' : Host σ}
    {s w : Sweeper} {others : List (ℕ × Sweeper)} (hsole : c.Sole number s)
    (hgoes : GoesOn pace before c h c' h' m w others) :
    m = number ∧ w = s ∧ c'.Sole number (step pace c'.now s h).1 ∨
      m ≠ number ∧ c'.Sole number s := by
  have hwas : [s].Perm (ofNumber number ((m, w) :: others)) := by
    rw [← hsole]
    exact hgoes.was.filterMap _
  have hbecomes : (ofNumber number c'.sweepers).Perm
      (ofNumber number ((m, (step pace c'.now w h).1) :: others)) := hgoes.becomes.filterMap _
  rw [ofNumber_cons] at hwas hbecomes
  by_cases hm : m = number
  · rw [if_pos hm] at hwas hbecomes
    obtain ⟨rfl, hnone⟩ := List.cons.inj (List.singleton_perm.mp hwas)
    rw [← hnone] at hbecomes
    exact Or.inl ⟨hm, rfl, List.perm_singleton.mp hbecomes⟩
  · rw [if_neg hm] at hwas hbecomes
    rw [← List.singleton_perm.mp hwas] at hbecomes
    exact Or.inr ⟨hm, List.perm_singleton.mp hbecomes⟩

/-- **A sweeper lasts while its crew is at work.** -/
theorem Sole.lasts_run {number : ℕ} {c : Crew} {s : Sweeper} (hsole : c.Sole number s) (pace : Pace)
    (awaited : Option ℕ) (deadline fuel : ℕ) (h : Host σ) :
    ∃ s', (run pace awaited deadline fuel c h).1.Sole number s' ∧ Lasts s s' := by
  induction fuel generalizing c s h with
  | zero => exact ⟨s, hsole, Lasts.refl s⟩
  | succ fuel ih =>
    obtain ⟨hrun, -⟩ | ⟨c', h', m, w, others, hgoes, hrun⟩ :=
      run_succ_cases pace awaited deadline fuel c h
    · rw [hrun]
      exact ⟨s, hsole, Lasts.refl s⟩
    · rw [hrun]
      obtain ⟨-, -, hsole'⟩ | ⟨-, hsole'⟩ := hsole.goesOn hgoes
      · obtain ⟨s', hs', hlasts⟩ := ih hsole' h'
        exact ⟨s', hs', (lasts_step pace _ s h).trans hlasts⟩
      · exact ih hsole' h'

theorem Sole.lasts_passTo {number : ℕ} {c : Crew} {s : Sweeper} (hsole : c.Sole number s)
    (pace : Pace) (awaited : Option ℕ) (deadline : ℕ) (h : Host σ) :
    ∃ s', (c.passTo pace awaited deadline h).1.Sole number s' ∧ Lasts s s' := by
  obtain ⟨s', hs', hlasts⟩ := hsole.lasts_run pace awaited deadline (c.enough deadline) h
  refine ⟨s', ?_, hlasts⟩
  rw [passTo]
  rcases hrun : run pace awaited deadline (c.enough deadline) c h with ⟨c', h'⟩
  rw [hrun] at hs'
  dsimp only
  split
  · exact hs'
  · exact hs'

/-! ### A raised signal -/

/-- A sweeper that has not stopped can be called on before the deadline. -/
theorem stopped_or_due {s : Sweeper} {now deadline : ℕ} (hlost : s.stage ≠ .lost)
    (hends : s.endsBefore deadline) (hnow : now < deadline) :
    s.stage = .stopped ∨ Retention.heard? s = none ∧ 0 < s.stepsLeft ∧
      ∃ t, due? true now s = some t ∧ t < deadline := by
  rcases hstage : s.stage with due | ⟨due, _ | stop, c, r⟩ | _ | _
  · refine Or.inr ⟨by rw [Retention.heard?, hstage], ?_, now, ?_, hnow⟩
    · rw [Sweeper.stepsLeft, hstage]
      exact Nat.one_pos
    · rw [due?, hstage]
      rfl
  · rw [Sweeper.endsBefore, hstage] at hends
    cases hends
  · rw [Sweeper.endsBefore, hstage] at hends
    refine Or.inr ⟨by rw [Retention.heard?, hstage], ?_, max now (goesOff stop), ?_, ?_⟩
    · rw [Sweeper.stepsLeft, hstage]
      exact Nat.two_pos
    · rw [due?, hstage]
    · exact max_lt hnow (of_decide_eq_true hends)
  · exact Or.inl rfl
  · exact absurd hstage hlost

/-- How often somebody of a crew has to go on until all have stopped that ever do. -/
def stepsLeft (ws : List (ℕ × Sweeper)) : ℕ := (ws.map fun w => w.2.stepsLeft).sum

theorem stepsLeft_perm {ws vs : List (ℕ × Sweeper)} (h : ws.Perm vs) :
    stepsLeft ws = stepsLeft vs :=
  (h.map _).sum_nat

theorem stepsLeft_cons (w : ℕ × Sweeper) (ws : List (ℕ × Sweeper)) :
    stepsLeft (w :: ws) = w.2.stepsLeft + stepsLeft ws := rfl

theorem stepsLeft_le (ws : List (ℕ × Sweeper)) : stepsLeft ws ≤ 2 * ws.length := by
  induction ws with
  | nil => exact Nat.le_refl _
  | cons w ws ih =>
    have hw : w.2.stepsLeft ≤ 2 := by
      rw [Sweeper.stepsLeft]
      rcases w.2.stage with _ | ⟨_, _ | _, _, _⟩ | _ | _ <;> simp [Patrol.toStop?]
    rw [stepsLeft_cons, List.length_cons]
    omega

theorem Sole.mem {number : ℕ} {c : Crew} {s : Sweeper} (h : c.Sole number s) :
    (number, s) ∈ c.sweepers := by
  have hs : s ∈ ofNumber number c.sweepers := by
    rw [h]
    exact List.mem_singleton_self s
  obtain ⟨⟨m, w⟩, hw, hm⟩ := List.mem_filterMap.mp hs
  split_ifs at hm with hnumber
  cases hm
  rwa [← show m = number from hnumber]

theorem Sole.stepsLeft_le {number : ℕ} {c : Crew} {s : Sweeper} (h : c.Sole number s) :
    s.stepsLeft ≤ stepsLeft c.sweepers := by
  obtain ⟨before, after, heq⟩ := List.append_of_mem h.mem
  rw [heq, stepsLeft_perm List.perm_middle, stepsLeft_cons]
  exact Nat.le_add_right _ _

/-- **Under a raised signal a sweeper stops in time**, and its report has the sweep that was under
way. Somebody goes on as long as it has not stopped, and everybody who goes on leaves a step
less to be made. -/
theorem Sole.run_stops {number : ℕ} {c : Crew} {s : Sweeper} {deadline fuel : ℕ} {h : Host σ}
    (pace : Pace) (hsole : c.Sole number s) (hsignal : h.signal.cancelled = true)
    (hlost : s.stage ≠ .lost) (hends : s.endsBefore deadline) (hnow : c.now < deadline)
    (hfuel : stepsLeft c.sweepers ≤ fuel) :
    (run pace (some number) deadline fuel c h).1.heard? number = some (.ok s.total) := by
  have hheard {c : Crew} {s : Sweeper} (hsole : c.Sole number s) (hstage : s.stage = .stopped) :
      c.heard? number = some (.ok s.total) := by
    rw [hsole.heard_eq, Retention.heard?, Sweeper.total, hstage]
  induction fuel generalizing c s h with
  | zero =>
    obtain hstage | ⟨-, hsteps, -⟩ := stopped_or_due hlost hends hnow
    · exact hheard hsole hstage
    · have hle := hsole.stepsLeft_le
      omega
  | succ fuel ih =>
    obtain ⟨hrun, hrests⟩ | ⟨c', h', m, w, others, hgoes, hrun⟩ :=
      run_succ_cases pace (some number) deadline fuel c h
    · rw [hrun]
      obtain hstage | ⟨hnot, -, t, hdue, ht⟩ := stopped_or_due hlost hends hnow
      · exact hheard hsole hstage
      · have hhorizon : c.horizon (some number) deadline = deadline := by
          rw [horizon, Option.bind_some, hsole.heard_eq, hnot]
        rw [hsignal, hhorizon] at hrests
        exact absurd (hrests _ hsole.mem t hdue) (Nat.not_le.mpr ht)
    · rw [hrun]
      have hdue := hgoes.due
      rw [hsignal] at hdue
      obtain ⟨hless, htotal, hends'⟩ := step_cancelled pace hsignal hdue deadline
      have hsignal' : h'.signal.cancelled = true := by
        rw [hgoes.host, signal_step, hsignal]
      have hnow' : c'.now < deadline := by
        refine lt_of_lt_of_le hgoes.inTime ?_
        rw [horizon]
        split
        · exact min_le_left _ _
        · exact le_refl _
      have hfuel' : stepsLeft c'.sweepers ≤ fuel := by
        rw [stepsLeft_perm hgoes.was, stepsLeft_cons] at hfuel
        rw [stepsLeft_perm hgoes.becomes, stepsLeft_cons]
        dsimp only at hfuel ⊢
        omega
      obtain ⟨-, rfl, hsole'⟩ | ⟨-, hsole'⟩ := hsole.goesOn hgoes
      · have hlost' : (step pace c'.now w h).1.stage ≠ .lost := by
          rwa [ne_eq, (lasts_step pace c'.now w h).lost]
        rw [← htotal]
        exact ih hsole' hsignal' hlost' hends' hnow' hfuel'
      · exact ih hsole' hsignal' hlost hends hnow' hfuel'

/-- Waiting for a sweeper of a number up to a deadline that is an instant. -/
def waitUntil (deadline : ℕ) (pace : Pace) (number : ℕ) (timeout : Duration) (c : Crew)
    (h : Host σ) : Except RetentionError Report × Crew × Host σ :=
  let (c, h) := c.passTo pace (some number) deadline h
  ((c.heard? number).getD (.error (.shutdownTimeout timeout)), c, h)

/-- The deadline is left open, so that nobody computes it. -/
theorem wait_eq_waitUntil (pace : Pace) (number : ℕ) (timeout : Duration) (c : Crew) (h : Host σ) :
    c.wait pace number timeout h =
      c.waitUntil (goesOff (c.now + timeout.totalNanos)) pace number timeout h := rfl

theorem le_goesOff (due : ℕ) : due ≤ goesOff due := by
  rw [goesOff, millisecond]
  omega

/-- **Who waits under a raised signal** hears the report, if there is any time to wait and the
sweep under way ends in it. -/
theorem Sole.waitUntil_stops {number deadline : ℕ} {c : Crew} {s : Sweeper} {h : Host σ}
    (pace : Pace) (timeout : Duration) (hsole : c.Sole number s)
    (hsignal : h.signal.cancelled = true) (hlost : s.stage ≠ .lost) (hnow : c.now < deadline)
    (hends : s.endsBefore deadline) :
    (c.waitUntil deadline pace number timeout h).1 = .ok s.total := by
  have hfuel : stepsLeft c.sweepers ≤ c.enough deadline := by
    refine (Crew.stepsLeft_le _).trans ?_
    rw [enough, Nat.mul_comm]
    exact Nat.mul_le_mul_left _ (by omega)
  have hheard := hsole.run_stops pace hsignal hlost hends hnow hfuel
  rw [waitUntil, passTo]
  simp only [Option.bind_some, hheard]
  rfl

/-- **Who waits is told that a sweeper is lost exactly if it is.** -/
theorem Sole.waitUntil_eq_lost_iff {number : ℕ} {c : Crew} {s : Sweeper}
    (hsole : c.Sole number s) (pace : Pace) (timeout : Duration) (deadline : ℕ) (h : Host σ) :
    (c.waitUntil deadline pace number timeout h).1 = .error .lost ↔ s.stage = .lost := by
  obtain ⟨s', hsole', hlasts⟩ := hsole.lasts_passTo pace (some number) deadline h
  rw [waitUntil, ← hlasts.lost]
  dsimp only
  rw [hsole'.heard_eq, Retention.heard?]
  cases s'.stage <;> simp

/-! ### A life -/

/-- What happens to a crew and its host. -/
inductive Event (σ : Type) where
  /-- What is due now is done. -/
  | settle (pace : Pace)
  /-- Time passes up to a deadline, or until there is something to hear from somebody. -/
  | pass (pace : Pace) (awaited : Option ℕ) (deadline : ℕ)
  /-- A sweeper joins. -/
  | hire (number : ℕ) (p : Policy) (uptime : ℕ)
  /-- Others do something with the host: with the store, the clock or the signal. -/
  | others (f : Host σ → Host σ)

/-- One thing happens. -/
def happen (x : Crew × Host σ) : Event σ → Crew × Host σ
  | .settle pace => x.1.settle pace x.2
  | .pass pace awaited deadline => x.1.passTo pace awaited deadline x.2
  | .hire number p uptime => x.1.hire number p uptime x.2
  | .others f => (x.1, f x.2)

/-- One thing after another. -/
def live (events : List (Event σ)) (x : Crew × Host σ) : Crew × Host σ :=
  events.foldl happen x

/-- **A sweeper lasts whatever happens**, as long as nobody else gets its number. -/
theorem Sole.lasts_live {number : ℕ} {events : List (Event σ)}
    (hevents : ∀ p uptime, Event.hire number p uptime ∉ events) {x : Crew × Host σ} {s : Sweeper}
    (hsole : x.1.Sole number s) : ∃ s', (live events x).1.Sole number s' ∧ Lasts s s' := by
  induction events generalizing x s with
  | nil => exact ⟨s, hsole, Lasts.refl s⟩
  | cons event events ih =>
    have hstep : ∃ s', (happen x event).1.Sole number s' ∧ Lasts s s' := by
      cases event with
      | settle pace => exact hsole.lasts_run pace none _ _ x.2
      | pass pace awaited deadline => exact hsole.lasts_passTo pace awaited deadline x.2
      | hire m p uptime =>
        have hm : m ≠ number := by
          rintro rfl
          exact hevents p uptime List.mem_cons_self
        refine ⟨s, ?_, Lasts.refl s⟩
        show ofNumber number (x.1.sweepers ++ [(m, _)]) = [s]
        rw [ofNumber_append, hsole, ofNumber_cons, if_neg hm]
        rfl
      | others f => exact ⟨s, hsole, Lasts.refl s⟩
    obtain ⟨s', hsole', hlasts⟩ := hstep
    obtain ⟨s'', hsole'', hlasts'⟩ :=
      ih (fun p uptime hmem => hevents p uptime (List.mem_cons_of_mem _ hmem)) hsole'
    exact ⟨s'', hsole'', hlasts.trans hlasts'⟩

omit [Store σ] in
/-- A sweeper that joins under a new number is the only one of it. -/
theorem sole_hire {number : ℕ} {c : Crew} (hnew : ∀ w, (number, w) ∉ c.sweepers) (p : Policy)
    (uptime : ℕ) (h : Host σ) :
    (c.hire number p uptime h).1.Sole number (start p uptime c.now h).1 := by
  have hnone : ofNumber number c.sweepers = [] := by
    refine List.filterMap_eq_nil_iff.mpr ?_
    rintro ⟨m, w⟩ hw
    refine if_neg ?_
    rintro rfl
    exact hnew w hw
  show ofNumber number (c.sweepers ++ [(number, _)]) = _
  rw [ofNumber_append, hnone, ofNumber_cons, if_pos rfl]
  rfl

end Run

end Crew

/-! ### The first tick -/

/-- **A sweeper is lost at its start** if there is no time between its ticks, or if the first of
them is beyond all instants. -/
theorem stage_start_eq_lost_iff (p : Policy) (uptime now : ℕ) (h : Host σ) :
    (start p uptime now h).1.stage = .lost ↔
      greatestInstant < uptime + p.interval.secs.toNat ∨ p.interval.totalNanos = 0 := by
  rw [start, firstTick?]
  split_ifs with hbeyond hzero <;> simp [*]

end Retention

namespace Settings

open Retention

/-- What is good about good settings. -/
theorem validate_eq_ok_iff (s : Settings) : s.validate = .ok () ↔
    s.maxDocumentAgeSecs ≠ 0 ∧ s.sweepIntervalSecs ≠ 0 ∧ s.shutdownTimeoutSecs ≠ 0 := by
  rw [validate]
  split_ifs with hage hinterval htimeout <;> simp [*]

/-- **No age of documents is too great for a cutoff**: at the most it moves the clock back by the
greatest timestamp. -/
theorem micros_cutoff_retention (s : Settings) (now : Timestamp) :
    (cutoff s.retention.maxAge now).micros = max Timestamp.least
      (now.micros - min (s.maxDocumentAgeSecs.toNat * 1000000 : ℤ) Timestamp.greatest) := by
  have hhigh := now.le_greatest
  have hmicros : s.retention.maxAge.wholeMicros = s.maxDocumentAgeSecs.toNat * 1000000 := by
    simp [retention, Duration.ofSecs, Duration.wholeMicros]
  rw [cutoff, Timestamp.micros_back, Duration.excess, hmicros]
  simp only [Timestamp.greatest, Timestamp.least] at hhigh ⊢
  omega

theorem totalNanos_ofSecs_eq_zero_iff (n : UInt64) :
    (Duration.ofSecs n).totalNanos = 0 ↔ n = 0 := by
  rw [Duration.totalNanos, Duration.ofSecs, ← UInt64.toNat_inj]
  simp

/-- **Good settings lose their sweeper exactly if its first tick is beyond all instants.**

A server with settings that were found good starts its sweeper at any time, in any crew and on any
host, under a number of its own. Then anything may happen: time passes, others wait and hire
sweepers, the store, the clock and the signal change.

Whoever then waits for the sweeper is told that it is lost exactly if the interval of the settings
leads from the start past the greatest instant. In all other cases it still goes by the settings,
no age of documents is too great for a cutoff, and once the signal is raised, who waits for it as
long as the settings say hears its report, with the sweep under way, if that ends in time. -/
theorem sweeper_lost_iff_beyond_instants {σ : Type} [Store σ] (s : Settings)
    (hs : s.validate = .ok ()) (uptime number : ℕ) (c₀ : Crew) (h₀ : Host σ)
    (hnew : ∀ w, (number, w) ∉ c₀.sweepers) (events : List (Crew.Event σ))
    (hevents : ∀ p uptime, Crew.Event.hire number p uptime ∉ events) (c : Crew) (h : Host σ)
    (hlife : (c, h) = Crew.live events (c₀.hire number s.retention uptime h₀)) :
    ∃ w, c.sweepers.lookup number = some w ∧ w.policy = s.retention ∧
      (∀ pace timeout, (c.wait pace number timeout h).1 = .error .lost ↔
        greatestInstant < uptime + s.sweepIntervalSecs.toNat) ∧
      (∀ now, (cutoff w.policy.maxAge now).micros = max Timestamp.least
        (now.micros - min (s.maxDocumentAgeSecs.toNat * 1000000 : ℤ) Timestamp.greatest)) ∧
      (uptime + s.sweepIntervalSecs.toNat ≤ greatestInstant → h.signal.cancelled = true →
        w.endsBefore (goesOff (c.now + s.shutdownTimeout.totalNanos)) → ∀ pace,
        (c.wait pace number s.shutdownTimeout h).1 = .ok w.total) := by
  obtain ⟨-, hinterval, htimeout⟩ := s.validate_eq_ok_iff.mp hs
  obtain ⟨w, hsole, hlasts⟩ :=
    (Crew.sole_hire hnew s.retention uptime h₀).lasts_live hevents
  rw [← hlife] at hsole
  have hlost : w.stage = .lost ↔ greatestInstant < uptime + s.sweepIntervalSecs.toNat := by
    rw [hlasts.lost, stage_start_eq_lost_iff, retention, totalNanos_ofSecs_eq_zero_iff,
      or_iff_left hinterval]
    rfl
  have hpolicy : w.policy = s.retention := hlasts.policy
  refine ⟨w, ?_, hpolicy, ?_, ?_, ?_⟩
  · rw [Crew.lookup_eq_head?, hsole]
    rfl
  · intro pace timeout
    rw [Crew.wait_eq_waitUntil, ← hlost]
    exact hsole.waitUntil_eq_lost_iff pace timeout _ h
  · intro now
    rw [hpolicy]
    exact s.micros_cutoff_retention now
  · intro hinstant hsignal hends pace
    rw [Crew.wait_eq_waitUntil]
    refine hsole.waitUntil_stops pace _ hsignal ?_ ?_ hends
    · rw [ne_eq, hlost]
      exact Nat.not_lt.mpr hinstant
    · refine lt_of_lt_of_le (Nat.lt_add_of_pos_right ?_) (Crew.le_goesOff _)
      rwa [Nat.pos_iff_ne_zero, ne_eq, shutdownTimeout, totalNanos_ofSecs_eq_zero_iff]

/-- A minute passes, and the signal is raised a millisecond after the sweeper has begun to sweep,
which takes five. -/
def firstSweep : List (Crew.Event Memory) :=
  [.settle (some 5), .pass (some 5) none 60001000000,
    .others fun h => { h with signal := { raised := true } }]

/-- A sweeper that goes by the default settings, in the middle of its first sweep. -/
def inFirstSweep : Crew × Host Memory :=
  Crew.live firstSweep (Crew.hire {} 0 ({} : Settings).retention 1000 Patrol.hourLater)

/-- With the settings that a server has by default, it waits for the sweep under way and is told
what was deleted. -/
theorem sweeper_lost_iff_beyond_instants_default :
    ({} : Settings).validate = .ok () ∧ (∀ p uptime, Crew.Event.hire 0 p uptime ∉ firstSweep) ∧
      (inFirstSweep.1.wait (some 5) 0 ({} : Settings).shutdownTimeout inFirstSweep.2).1 =
        .ok ⟨1, 1, 0⟩ := by
  have hevents : ∀ p uptime, Crew.Event.hire 0 p uptime ∉ firstSweep := by simp [firstSweep]
  obtain ⟨w, hw, -, -, -, hstops⟩ := sweeper_lost_iff_beyond_instants {} rfl 1000 0 {}
    Patrol.hourLater (by simp) firstSweep hevents inFirstSweep.1 inFirstSweep.2 (Prod.eta _)
  have htotal : (inFirstSweep.1.sweepers.lookup 0).map Sweeper.total = some ⟨1, 1, 0⟩ := by
    decide +kernel
  have hends : (inFirstSweep.1.sweepers.lookup 0).map (Sweeper.endsBefore
      (goesOff (inFirstSweep.1.now + ({} : Settings).shutdownTimeout.totalNanos))) = some true := by
    decide +kernel
  rw [hw] at htotal hends
  refine ⟨rfl, hevents, ?_⟩
  rw [hstops (by decide) (by decide +kernel) (Option.some.inj hends) (some 5)]
  exact congrArg Except.ok (Option.some.inj htotal)

/-- **Good settings can lose their sweeper**: with the longest interval, who waits for it after the
signal was raised is told that it is lost. -/
theorem good_settings_lose_sweeper :
    ({ sweepIntervalSecs := 18446744073709551615 } : Settings).validate = .ok () ∧
    ∃ c h, (c, h) = Crew.live [.others fun h => { h with signal := { raised := true } }]
        (Crew.hire {} 0 ({ sweepIntervalSecs := 18446744073709551615 } : Settings).retention 1000
          Patrol.hourLater) ∧
      (c.wait (some 0) 0 ({} : Settings).shutdownTimeout h).1 = .error .lost :=
  ⟨rfl, _, _, rfl, rfl⟩

end Settings

end Vault
