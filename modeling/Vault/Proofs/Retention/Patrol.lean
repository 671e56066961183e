import Mathlib.Data.List.Induction
import Vault.Proofs.Retention.Journal
import Vault.Retention.Crew

/-!
# What a sweeper has done

A sweeper goes round at its interval while others add documents, the clock is set, deletions
fail and the shutdown signal comes and goes, all at any time (`Vault.Retention.Patrol.step`).
The store keeps a journal, so that what the sweeper reports can be held against what it did.

Between two rounds the report is the tally of the journal (`Vault.Retention.tally`), and during
a round it lacks just the sweep under way, whose outcome is known already. That is the
invariant (`Vault.Retention.Patrol.Sound`), and everything a sweeper can do when it goes on is
said once (`Vault.Retention.Patrol.goOn_cases`).

A sweep that failed has left no trace but in the log and in the report. The argument is a
simulation (`Vault.Retention.Patrol.Without`): the run in which those sweeps are left out is
idle while the other one fails. It needs that nobody is held to the time, since a failed sweep
may push the next one back; a crew that is held to it makes fewer runs, not others
(`Vault.Retention.Crew.run_alone`).
-/

namespace Vault.Retention

variable {σ : Type} [Store σ]

/-! ### A sweeper and what goes on around it -/

/-- A sweeper and the host that it works on. -/
structure Patrol (σ : Type) where
  /-- The sweeper. -/
  sweeper : Sweeper
  /-- The host. -/
  host : Host (Journaled σ)

namespace Patrol

/-- Something happens. -/
inductive Move where
  /-- The sweeper goes on, at this time; if it deletes, that takes so long. -/
  | goOn (pace : Pace) (now : ℕ)
  /-- Somebody adds a document. -/
  | insert (d : Draft)
  /-- The clock says something else. -/
  | clock (t : Timestamp)
  /-- The shutdown signal is raised, or put down, or its sender goes. -/
  | signal (s : Signal)
  /-- From now on deletions fail, or do not. -/
  | fault (e : Option StoreError)

/-- Whether the sweeper goes on. -/
def Move.isGoOn : Move → Bool
  | goOn _ _ => true
  | _ => false

/-- Whether the signal may change. -/
def Move.isSignal : Move → Bool
  | signal _ => true
  | _ => false

/-- What happened to the store so far. -/
def journal (w : Patrol σ) : List Memory.Event := w.host.store.journal

/-- One thing happens. -/
def step : Move → Patrol σ → Patrol σ
  | .goOn pace now, w =>
    ⟨(Retention.step pace now w.sweeper w.host).1, (Retention.step pace now w.sweeper w.host).2⟩
  | .insert d, w => { w with host := (w.host.insert d).2 }
  | .clock t, w => { w with host := { w.host with now := t } }
  | .signal s, w => { w with host := { w.host with signal := s } }
  | .fault e, w => { w with host := { w.host with store := { w.host.store with fault := e } } }

/-- One thing after another. -/
def run (moves : List Move) (w : Patrol σ) : Patrol σ :=
  moves.foldl (fun w move => step move w) w

/-- A sweeper starts on a host, from where on a journal is kept. -/
def begin (p : Policy) (uptime now : ℕ) (h : Host σ) : Patrol σ :=
  ⟨(start p uptime now (h.mapStore fun store => ({ store } : Journaled σ))).1,
    (start p uptime now (h.mapStore fun store => ({ store } : Journaled σ))).2⟩

@[simp] theorem run_append (moves more : List Move) (w : Patrol σ) :
    run (moves ++ more) w = run more (run moves w) :=
  List.foldl_append

@[simp] theorem run_nil (w : Patrol σ) : run [] w = w := rfl

@[simp] theorem run_cons (move : Move) (moves : List Move) (w : Patrol σ) :
    run (move :: moves) w = run moves (step move w) := rfl

end Patrol

/-- What is written to a log changes nothing else. -/
theorem exists_log (c : Timestamp) (r : Except StoreError ℕ) {τ : Type} (h : Host τ) :
    ∃ log, recordFailure r (recordSweep c r h) = { h with log := log } := by
  rcases r with e | _ | n
  exacts [⟨_, rfl⟩, ⟨_, rfl⟩, ⟨_, rfl⟩]

namespace Patrol

/-- The cutoff of a sweep that begins now. -/
def cutoffNow (w : Patrol σ) : Timestamp := cutoff w.sweeper.policy.maxAge w.host.now

section GoOn

variable {w : Patrol σ} {due : ℕ}

/-- At a boundary at which the signal is raised the sweeper stops. -/
theorem goOn_stop (hstage : w.sweeper.stage = .idle due) (hsignal : w.host.signal.cancelled = true)
    (pace : Pace) (t : ℕ) : ∃ log, step (.goOn pace t) w =
      ⟨{ w.sweeper with stage := .stopped }, { w.host with log := log }⟩ := by
  refine ⟨w.host.log ++ [stoppedRecord w.sweeper.report], ?_⟩
  simp only [step, Retention.step, hstage, hsignal, if_true, stop]
  rfl

/-- A sweeper that has just made a deletion, which takes some time or none. -/
def deleting (s : Sweeper) (pace : Pace) (t due : ℕ) (c : Timestamp) (r : Except StoreError ℕ) :
    Sweeper :=
  match pace with
  | some 0 => { s with stage := .idle (nextDue s.policy.interval due t), report := s.report.add r }
  | some (ms + 1) => { s with
      stage := .sweeping (nextDue s.policy.interval due t) (some (t + (ms + 1) * millisecond)) c r }
  | none => { s with stage := .sweeping (nextDue s.policy.interval due t) none c r }

/-- At any other boundary it makes one deletion. -/
theorem goOn_delete (hstage : w.sweeper.stage = .idle due)
    (hsignal : w.host.signal.cancelled = false) {r : Except StoreError ℕ} {store : Journaled σ}
    (hdelete : Store.deleteBefore w.cutoffNow w.host.store = (r, store)) (pace : Pace) (t : ℕ) :
    ∃ log, step (.goOn pace t) w = ⟨deleting w.sweeper pace t due w.cutoffNow r,
      { w.host with store := store, log := log }⟩ := by
  have htick : step (.goOn pace t) w =
      ⟨(tick w.sweeper due t pace w.host).1, (tick w.sweeper due t pace w.host).2⟩ := by
    simp only [step, Retention.step, hstage, hsignal, Bool.false_eq_true, if_false]
  obtain ⟨log, hlog⟩ := exists_log w.cutoffNow r { w.host with store := store }
  rw [cutoffNow] at hdelete
  rw [htick, tick, Host.deleteBefore, hdelete]
  rcases pace with _ | _ | ms
  · exact ⟨w.host.log, rfl⟩
  · refine ⟨log, ?_⟩
    rw [cutoffNow] at hlog
    simp only [finishSweep, hlog]
    rfl
  · exact ⟨w.host.log, rfl⟩

/-- In the middle of a sweep it ends it and counts it. -/
theorem goOn_end {stop : ℕ} {c : Timestamp} {r : Except StoreError ℕ}
    (hstage : w.sweeper.stage = .sweeping due (some stop) c r) (pace : Pace) (t : ℕ) :
    ∃ log, step (.goOn pace t) w =
      ⟨{ w.sweeper with stage := .idle due, report := w.sweeper.report.add r },
        { w.host with log := log }⟩ := by
  obtain ⟨log, hlog⟩ := exists_log c r w.host
  refine ⟨log, ?_⟩
  simp only [step, Retention.step, hstage, finishSweep, hlog]

/-- A sweeper that cannot go on: it has stopped or is lost, or its deletion never ends. -/
def AtRest (w : Patrol σ) : Prop :=
  w.sweeper.stage = .stopped ∨ w.sweeper.stage = .lost ∨
    ∃ due c r, w.sweeper.stage = .sweeping due none c r

theorem goOn_atRest (h : w.AtRest) (pace : Pace) (t : ℕ) : step (.goOn pace t) w = w := by
  rcases h with hstage | hstage | ⟨due, c, r, hstage⟩ <;> simp only [step, Retention.step, hstage]

end GoOn

/-- **Everything a sweeper can do when it goes on.** -/
theorem goOn_cases (pace : Pace) (t : ℕ) (w : Patrol σ) :
    (∃ due log, w.sweeper.stage = .idle due ∧ w.host.signal.cancelled = true ∧
      step (.goOn pace t) w =
        ⟨{ w.sweeper with stage := .stopped }, { w.host with log := log }⟩) ∨
    (∃ due r store log, w.sweeper.stage = .idle due ∧ w.host.signal.cancelled = false ∧
      Store.deleteBefore w.cutoffNow w.host.store = (r, store) ∧
      step (.goOn pace t) w = ⟨deleting w.sweeper pace t due w.cutoffNow r,
        { w.host with store := store, log := log }⟩) ∨
    (∃ due stop c r log, w.sweeper.stage = .sweeping due (some stop) c r ∧
      step (.goOn pace t) w =
        ⟨{ w.sweeper with stage := .idle due, report := w.sweeper.report.add r },
          { w.host with log := log }⟩) ∨
    w.AtRest ∧ step (.goOn pace t) w = w := by
  rcases hstage : w.sweeper.stage with due | ⟨due, _ | stop, c, r⟩ | _ | _
  · cases hsignal : w.host.signal.cancelled with
    | true =>
      obtain ⟨log, hstep⟩ := goOn_stop hstage hsignal pace t
      exact Or.inl ⟨due, log, rfl, rfl, hstep⟩
    | false =>
      rcases hdelete : Store.deleteBefore w.cutoffNow w.host.store with ⟨r, store⟩
      obtain ⟨log, hstep⟩ := goOn_delete hstage hsignal hdelete pace t
      exact Or.inr (Or.inl ⟨due, r, store, log, rfl, rfl, rfl, hstep⟩)
  · have hrest : w.AtRest := Or.inr (Or.inr ⟨due, c, r, hstage⟩)
    exact Or.inr (Or.inr (Or.inr ⟨hrest, goOn_atRest hrest pace t⟩))
  · obtain ⟨log, hstep⟩ := goOn_end hstage pace t
    exact Or.inr (Or.inr (Or.inl ⟨due, stop, c, r, log, rfl, hstep⟩))
  · have hrest : w.AtRest := Or.inl hstage
    exact Or.inr (Or.inr (Or.inr ⟨hrest, goOn_atRest hrest pace t⟩))
  · have hrest : w.AtRest := Or.inr (Or.inl hstage)
    exact Or.inr (Or.inr (Or.inr ⟨hrest, goOn_atRest hrest pace t⟩))

/-- A sweeper goes by one policy. -/
theorem policy_run (moves : List Move) (w : Patrol σ) :
    (run moves w).sweeper.policy = w.sweeper.policy := by
  induction moves generalizing w with
  | nil => rfl
  | cons move moves ih =>
    rw [run_cons, ih]
    cases move with
    | goOn pace t =>
      rcases goOn_cases pace t w with ⟨_, _, -, -, hstep⟩ | ⟨_, _, _, _, -, -, -, hstep⟩ |
        ⟨_, _, _, _, _, -, hstep⟩ | ⟨-, hstep⟩ <;> rw [hstep]
      rcases pace with _ | _ | ms <;> rfl
    | _ => rfl

/-! ### The report is the tally of the journal -/

/-- The report lacks nothing but the sweep under way. -/
def Counted (w : Patrol σ) : Prop :=
  match w.sweeper.stage with
  | .sweeping _ _ _ r => w.sweeper.report.add r = tally w.journal
  | _ => w.sweeper.report = tally w.journal

/-- **What every move keeps**: the store is as its journal says, and the report too. -/
structure Sound (image : Memory → σ) (m₀ : Memory) (w : Patrol σ) : Prop where
  accounts : ∃ m, w.host.store.store = image m ∧ m.KeyedById ∧ Accounts m₀ w.journal m
  counted : w.Counted

variable {opening : σ → Except StoreError Unit × σ} {image : Memory → σ} {m₀ : Memory}
  {w : Patrol σ}

/-- What an insertion does. -/
theorem step_insert (hσ : Store.Mirrors opening image) {m : Memory}
    (hm : w.host.store.store = image m) (hkeyed : m.KeyedById) (d : Draft) :
    step (.insert d) w = ⟨w.sweeper,
      { w.host with
        store := ⟨image (m.commit (d.document w.host.now w.host.entropy).1).2,
          w.host.store.fault,
          w.journal ++ [.inserted (d.document w.host.now w.host.entropy).1
            (m.commit (d.document w.host.now w.host.entropy).1).1]⟩
        entropy := (d.document w.host.now w.host.entropy).2 }⟩ := by
  have hmirror : Store.insert d w.host.now (image m) w.host.entropy =
      ((m.commit (d.document w.host.now w.host.entropy).1).1,
        image (m.commit (d.document w.host.now w.host.entropy).1).2,
        (d.document w.host.now w.host.entropy).2) := hσ.insert d _ hkeyed _
  have hjournaled : Store.insert d w.host.now w.host.store w.host.entropy =
      ((Store.insert d w.host.now w.host.store.store w.host.entropy).1,
        ⟨(Store.insert d w.host.now w.host.store.store w.host.entropy).2.1, w.host.store.fault,
          w.journal ++ [.inserted (d.document w.host.now w.host.entropy).1
            (Store.insert d w.host.now w.host.store.store w.host.entropy).1]⟩,
        (Store.insert d w.host.now w.host.store.store w.host.entropy).2.2) := rfl
  rw [step, Host.insert, hjournaled, hm, hmirror]

omit [Store σ] in
theorem sound_begin (p : Policy) (uptime now : ℕ) {h : Host Memory}
    (hkeyed : h.store.KeyedById) :
    Sound image h.store (begin p uptime now (h.mapStore image)) := by
  refine ⟨⟨h.store, rfl, hkeyed, accounts_nil _⟩, ?_⟩
  rw [Counted, begin, start]
  rcases firstTick? uptime p.interval with _ | wait <;> rfl

/-- **One move keeps the invariant.** -/
theorem Sound.step (hσ : Store.Mirrors opening image) (h : Sound image m₀ w) (move : Move) :
    Sound image m₀ (step move w) := by
  obtain ⟨⟨m, hm, hkeyed, haccounts⟩, hcounted⟩ := h
  cases move with
  | goOn pace t =>
    rcases goOn_cases pace t w with ⟨due, log, hstage, -, hstep⟩ |
      ⟨due, r, store, log, hstage, -, hdelete, hstep⟩ |
      ⟨due, stop, c, r, log, hstage, hstep⟩ | ⟨-, hstep⟩
    · rw [Counted, hstage] at hcounted
      rw [hstep]
      exact ⟨⟨m, hm, hkeyed, haccounts⟩, hcounted⟩
    · rw [Counted, hstage] at hcounted
      have hmade : ∃ m', store.store = image m' ∧ m'.KeyedById ∧ Accounts m₀ store.journal m' ∧
          tally store.journal = w.sweeper.report.add r := by
        obtain ⟨hjournal, hdeleted⟩ := Journaled.deleteBefore_cases hσ hm hkeyed hdelete
        rw [hjournal, hcounted, tally_swept]
        rcases hdeleted with ⟨e, rfl, hstore⟩ | ⟨rfl, hstore⟩
        · exact ⟨m, hstore, hkeyed, haccounts.failed _ e, rfl⟩
        · exact ⟨_, hstore, hkeyed.deleteBefore _, haccounts.swept _, rfl⟩
      obtain ⟨m', hm', hkeyed', haccounts', htally⟩ := hmade
      rw [hstep]
      refine ⟨⟨m', hm', hkeyed', haccounts'⟩, ?_⟩
      rcases pace with _ | _ | ms <;> exact htally.symm
    · rw [Counted, hstage] at hcounted
      rw [hstep]
      exact ⟨⟨m, hm, hkeyed, haccounts⟩, hcounted⟩
    · rw [hstep]
      exact ⟨⟨m, hm, hkeyed, haccounts⟩, hcounted⟩
  | insert d =>
    rw [step_insert hσ hm hkeyed d]
    refine ⟨⟨_, rfl, hkeyed.commit _, haccounts.commit _⟩, ?_⟩
    simp only [Counted, journal] at hcounted ⊢
    rw [tally_inserted]
    exact hcounted
  | clock t => exact ⟨⟨m, hm, hkeyed, haccounts⟩, hcounted⟩
  | signal s => exact ⟨⟨m, hm, hkeyed, haccounts⟩, hcounted⟩
  | fault e => exact ⟨⟨m, hm, hkeyed, haccounts⟩, hcounted⟩

/-- **A whole run keeps it.** -/
theorem Sound.run (hσ : Store.Mirrors opening image) (h : Sound image m₀ w) (moves : List Move) :
    Sound image m₀ (run moves w) := by
  induction moves generalizing w with
  | nil => exact h
  | cons move moves ih => exact ih (h.step hσ move)

omit [Store σ] in
/-- A report that is handed over is the tally. -/
theorem Sound.report_eq (h : Sound image m₀ w) {report : Report}
    (hheard : heard? w.sweeper = some (.ok report)) : report = tally w.journal := by
  have hcounted := h.counted
  rw [heard?] at hheard
  rw [Counted] at hcounted
  split at hheard
  · next hstage =>
    rw [hstage] at hcounted
    rw [← hcounted]
    exact (Except.ok.inj (Option.some.inj hheard)).symm
  · cases Option.some.inj hheard
  · cases hheard

/-! ### Boundaries -/

/-- **A deletion begins only at a boundary** at which the signal is not raised, and it has the
cutoff of that moment. -/
theorem journal_step (hσ : Store.Mirrors opening image) (h : Sound image m₀ w) (move : Move) :
    (step move w).journal.filter isSweep = w.journal.filter isSweep ∨
      ∃ pace t due r, move = .goOn pace t ∧ w.sweeper.stage = .idle due ∧
        w.host.signal.cancelled = false ∧
        (step move w).journal = w.journal ++ [.swept w.cutoffNow r] := by
  obtain ⟨⟨m, hm, hkeyed, -⟩, -⟩ := h
  cases move with
  | goOn pace t =>
    rcases goOn_cases pace t w with ⟨due, log, -, -, hstep⟩ |
      ⟨due, r, store, log, hstage, hsignal, hdelete, hstep⟩ |
      ⟨due, stop, c, r, log, -, hstep⟩ | ⟨-, hstep⟩
    · exact Or.inl (by rw [hstep]; rfl)
    · refine Or.inr ⟨pace, t, due, r, rfl, hstage, hsignal, ?_⟩
      rw [hstep]
      exact (Journaled.deleteBefore_cases hσ hm hkeyed hdelete).1
    · exact Or.inl (by rw [hstep]; rfl)
    · exact Or.inl (by rw [hstep])
  | insert d =>
    refine Or.inl ?_
    rw [step_insert hσ hm hkeyed d, journal, List.filter_append]
    exact List.append_nil _
  | clock t => exact Or.inl rfl
  | signal s => exact Or.inl rfl
  | fault e => exact Or.inl rfl

/-- Whatever else happens, the sweeper stays as it is. -/
theorem sweeper_step {move : Move} (hmove : move.isGoOn = false) :
    (step move w).sweeper = w.sweeper := by
  cases move with
  | goOn pace t => cases hmove
  | _ => rfl

theorem signal_step {move : Move} (hmove : move.isSignal = false) :
    (step move w).host.signal = w.host.signal := by
  cases move with
  | goOn pace t =>
    rcases goOn_cases pace t w with ⟨_, _, -, -, hstep⟩ | ⟨_, _, _, _, -, -, -, hstep⟩ |
      ⟨_, _, _, _, _, -, hstep⟩ | ⟨-, hstep⟩ <;> rw [hstep]
  | signal s => cases hmove
  | _ => rfl

/-- Once it has stopped, a sweeper does nothing more. -/
theorem stopped_step (hσ : Store.Mirrors opening image) (h : Sound image m₀ w)
    (hstage : w.sweeper.stage = .stopped) (move : Move) :
    (step move w).sweeper = w.sweeper ∧
      (step move w).journal.filter isSweep = w.journal.filter isSweep := by
  constructor
  · cases hmove : move.isGoOn with
    | false => exact sweeper_step hmove
    | true =>
      cases move with
      | goOn pace t => rw [goOn_atRest (Or.inl hstage)]
      | _ => cases hmove
  · rcases journal_step hσ h move with hsame | ⟨_, _, _, _, -, hidle, -⟩
    · exact hsame
    · rw [hstage] at hidle
      cases hidle

theorem stopped_run (hσ : Store.Mirrors opening image) (h : Sound image m₀ w)
    (hstage : w.sweeper.stage = .stopped) (moves : List Move) :
    (run moves w).sweeper = w.sweeper ∧
      (run moves w).journal.filter isSweep = w.journal.filter isSweep := by
  induction moves generalizing w with
  | nil => exact ⟨rfl, rfl⟩
  | cons move moves ih =>
    obtain ⟨hsweeper, hjournal⟩ := stopped_step hσ h hstage move
    obtain ⟨hsweeper', hjournal'⟩ := ih (h.step hσ move) (by rw [hsweeper, hstage])
    exact ⟨hsweeper'.trans hsweeper, hjournal'.trans hjournal⟩

/-- **At a boundary at which the signal is raised** the sweeper stops for good. -/
theorem stops_at_boundary (hσ : Store.Mirrors opening image) (h : Sound image m₀ w) {due : ℕ}
    (hstage : w.sweeper.stage = .idle due) (hsignal : w.host.signal.cancelled = true)
    (pace : Pace) (t : ℕ) (more : List Move) :
    heard? (run (.goOn pace t :: more) w).sweeper = some (.ok w.sweeper.report) ∧
      (run (.goOn pace t :: more) w).journal.filter isSweep = w.journal.filter isSweep := by
  obtain ⟨log, hstep⟩ := goOn_stop hstage hsignal pace t
  obtain ⟨hsweeper, hjournal⟩ := stopped_run hσ (h.step hσ (.goOn pace t)) (by rw [hstep]) more
  rw [hstep] at hsweeper hjournal
  rw [run_cons, hstep, hsweeper]
  exact ⟨rfl, hjournal⟩

/-- **A sweep under way is ended and counted**, whatever happens in the meantime. -/
theorem ends_sweep {due stop : ℕ} {c : Timestamp} {r : Except StoreError ℕ}
    (hstage : w.sweeper.stage = .sweeping due (some stop) c r) {others : List Move}
    (hothers : ∀ move ∈ others, move.isGoOn = false) (pace : Pace) (t : ℕ) :
    (run (others ++ [.goOn pace t]) w).sweeper =
      { w.sweeper with stage := .idle due, report := w.sweeper.report.add r } := by
  have hsame : (run others w).sweeper = w.sweeper := by
    clear hstage
    induction others generalizing w with
    | nil => rfl
    | cons move others ih =>
      rw [run_cons, ih fun m hm => hothers m (List.mem_cons_of_mem move hm)]
      exact sweeper_step (hothers move List.mem_cons_self)
  rw [← hsame] at hstage
  obtain ⟨log, hstep⟩ := goOn_end hstage pace t
  rw [run_append, run_cons, run_nil, hstep, hsame]

/-- How often a sweeper has to go on until it has stopped, once the signal is raised; one whose
deletion never ends does not stop, and neither does one that is lost. -/
def toStop? : Stage → Option ℕ
  | .idle _ => some 1
  | .sweeping _ (some _) _ _ => some 2
  | .sweeping _ none _ _ => none
  | .stopped => some 0
  | .lost => none

/-- **A sweeper stops** when the signal is raised for good and it goes on often enough. -/
theorem stops {k : ℕ} (hneeds : toStop? w.sweeper.stage = some k)
    (hsignal : w.host.signal.cancelled = true) {moves : List Move}
    (hmoves : ∀ move ∈ moves, move.isSignal = false) (hoften : k ≤ moves.countP Move.isGoOn) :
    (run moves w).sweeper.stage = .stopped := by
  induction moves generalizing w k with
  | nil =>
    obtain rfl : k = 0 := Nat.le_zero.mp hoften
    rcases hstage : w.sweeper.stage with due | ⟨due, _ | stop, c, r⟩ | _ | _ <;>
      rw [hstage] at hneeds <;> cases hneeds
    exact hstage
  | cons move moves ih =>
    have hsignal' : (step move w).host.signal.cancelled = true := by
      rw [signal_step (hmoves move List.mem_cons_self), hsignal]
    have hmoves' : ∀ move ∈ moves, move.isSignal = false :=
      fun m hm => hmoves m (List.mem_cons_of_mem move hm)
    rw [List.countP_cons] at hoften
    cases hmove : move.isGoOn with
    | false =>
      rw [hmove] at hoften
      exact ih (by rw [sweeper_step hmove, hneeds]) hsignal' hmoves' hoften
    | true =>
      rw [hmove, if_pos rfl] at hoften
      cases move with
      | goOn pace t =>
        -- going on brings the sweeper one step nearer
        have hnearer : ∃ j, toStop? (step (.goOn pace t) w).sweeper.stage = some j ∧ j ≤ k - 1 := by
          rcases goOn_cases pace t w with ⟨_, _, hstage, -, hstep⟩ | ⟨_, _, _, _, -, hc, -⟩ |
            ⟨_, _, _, _, _, hstage, hstep⟩ | ⟨hstage | hstage | ⟨_, _, _, hstage⟩, hstep⟩
          · rw [hstep]
            exact ⟨0, rfl, Nat.zero_le _⟩
          · rw [hsignal] at hc
            cases hc
          · rw [hstage] at hneeds
            obtain rfl : 2 = k := Option.some.inj hneeds
            rw [hstep]
            exact ⟨1, rfl, Nat.le_refl _⟩
          · rw [hstep, hstage]
            exact ⟨0, rfl, Nat.zero_le _⟩
          all_goals
            rw [hstage] at hneeds
            cases hneeds
        obtain ⟨j, hj, hle⟩ := hnearer
        exact ih hj hsignal' hmoves' (by omega)
      | _ => cases hmove

/-! ### Failed sweeps left out -/

/-- What a sweeper does in a run without its failed sweeps: nothing, while one of them is under
way. -/
inductive StageWithout : Stage → Stage → Prop
  | idle (due due' : ℕ) : StageWithout (.idle due) (.idle due')
  | sweeping (due due' : ℕ) (stop : Option ℕ) (c : Timestamp) (n : ℕ) :
    StageWithout (.sweeping due stop c (.ok n)) (.sweeping due' stop c (.ok n))
  | failing (due due' : ℕ) (stop : Option ℕ) (c : Timestamp) (e : StoreError) :
    StageWithout (.sweeping due stop c (.error e)) (.idle due')
  | stopped : StageWithout .stopped .stopped
  | lost : StageWithout .lost .lost

/-- The report of a run without its failed sweeps. -/
structure ReportWithout (report report' : Report) : Prop where
  ticks : report'.ticks + report.failures = report.ticks
  deleted : report'.deleted = report.deleted
  failures : report'.failures = 0

/-- **Two runs that differ by failed sweeps only.** The store, the clock, the random bytes and
the signal are the same in both; the second has no failed sweep in its journal. -/
structure Without (w w' : Patrol σ) : Prop where
  host : ∃ log, w'.host = { w.host with
    store := { w.host.store with journal := w.journal.filter fun event => !isFailure event }
    log := log }
  policy : w'.sweeper.policy = w.sweeper.policy
  stage : StageWithout w.sweeper.stage w'.sweeper.stage
  report : ReportWithout w.sweeper.report w'.sweeper.report

theorem ReportWithout.add_ok {report report' : Report} (h : ReportWithout report report') (n : ℕ) :
    ReportWithout (report.add (.ok n)) (report'.add (.ok n)) := by
  obtain ⟨hticks, hdeleted, hfailures⟩ := h
  refine ⟨?_, congrArg (· + n) hdeleted, hfailures⟩
  change report'.ticks + 1 + report.failures = report.ticks + 1
  omega

theorem ReportWithout.add_error {report report' : Report} (h : ReportWithout report report')
    (e : StoreError) : ReportWithout (report.add (.error e)) report' := by
  obtain ⟨hticks, hdeleted, hfailures⟩ := h
  refine ⟨?_, hdeleted, hfailures⟩
  change report'.ticks + (report.failures + 1) = report.ticks + 1
  omega

section Without

variable {w' : Patrol σ}

omit [Store σ] in
/-- In both runs sweeps have the same cutoff. -/
theorem Without.cutoffNow (h : Without w w') : w'.cutoffNow = w.cutoffNow := by
  obtain ⟨log, hhost⟩ := h.host
  rw [Patrol.cutoffNow, Patrol.cutoffNow, hhost, h.policy]

/-- A boundary: the second run goes along, or stays behind if the deletion fails. -/
theorem Without.boundary (hσ : Store.Mirrors opening image) {m : Memory}
    (hm : w.host.store.store = image m) (hkeyed : m.KeyedById) (h : Without w w') {due due' : ℕ}
    (hstage : w.sweeper.stage = .idle due) (hstage' : w'.sweeper.stage = .idle due')
    (pace : Pace) (t : ℕ) :
    Without (step (.goOn pace t) w) (step (.goOn pace t) w') ∨
      Without (step (.goOn pace t) w) w' := by
  obtain ⟨log, hhost⟩ := h.host
  have hsignal' : w'.host.signal = w.host.signal := by rw [hhost]
  cases hsignal : w.host.signal.cancelled with
  | true =>
    obtain ⟨l, hstep⟩ := goOn_stop hstage hsignal pace t
    obtain ⟨l', hstep'⟩ := goOn_stop hstage' (by rw [hsignal', hsignal]) pace t
    rw [hstep, hstep', hhost]
    exact Or.inl ⟨⟨l', rfl⟩, h.policy, .stopped, h.report⟩
  | false =>
    cases hfault : w.host.store.fault with
    | some e =>
      -- nothing is deleted, and the first journal has a failure more
      obtain ⟨l, hstep⟩ := goOn_delete hstage hsignal (Journaled.deleteBefore_fails hfault _) pace t
      rw [hstep]
      refine Or.inr ⟨⟨log, ?_⟩, ?_, ?_, ?_⟩
      · rw [hhost]
        simp only [journal, List.filter_append]
        have hnone : [Memory.Event.swept w.cutoffNow (.error e)].filter
          (fun event => !isFailure event) = [] := rfl
        rw [hnone, List.append_nil]
      · rcases pace with _ | _ | ms <;> exact h.policy
      · rw [hstage']
        rcases pace with _ | _ | ms
        exacts [.failing _ _ _ _ _, .idle _ _, .failing _ _ _ _ _]
      · rcases pace with _ | _ | ms
        exacts [h.report, h.report.add_error e, h.report]
    | none =>
      obtain ⟨l, hstep⟩ := goOn_delete hstage hsignal
        (Journaled.deleteBefore_succeeds hσ hm hkeyed hfault _) pace t
      have hm' : w'.host.store.store = image m := by rw [hhost, ← hm]
      have hfault' : w'.host.store.fault = none := by rw [hhost, ← hfault]
      obtain ⟨l', hstep'⟩ := goOn_delete hstage' (by rw [hsignal', hsignal])
        (Journaled.deleteBefore_succeeds hσ hm' hkeyed hfault' _) pace t
      rw [hstep, hstep', h.cutoffNow]
      refine Or.inl ⟨⟨l', ?_⟩, ?_, ?_, ?_⟩
      · rw [hhost]
        simp only [journal, List.filter_append]
        rfl
      · rcases pace with _ | _ | ms <;> exact h.policy
      · rcases pace with _ | _ | ms
        exacts [.sweeping _ _ _ _ _, .idle _ _, .sweeping _ _ _ _ _]
      · rcases pace with _ | _ | ms
        exacts [h.report, h.report.add_ok _, h.report]

/-- **One move of the first run** is made in the second too, or left out. -/
theorem Without.step (hσ : Store.Mirrors opening image) {m : Memory}
    (hm : w.host.store.store = image m) (hkeyed : m.KeyedById) (h : Without w w') (move : Move) :
    Without (step move w) (step move w') ∨ Without (step move w) w' := by
  obtain ⟨log, hhost⟩ := h.host
  cases move with
  | goOn pace t =>
    have hstage := h.stage
    generalize hs : w.sweeper.stage = s at hstage
    generalize hs' : w'.sweeper.stage = s' at hstage
    cases hstage with
    | idle due due' => exact h.boundary hσ hm hkeyed hs hs' pace t
    | sweeping due due' stop c n =>
      cases stop with
      | none =>
        rw [goOn_atRest (Or.inr (Or.inr ⟨_, _, _, hs⟩))]
        exact Or.inr h
      | some stop =>
        obtain ⟨l, hstep⟩ := goOn_end hs pace t
        obtain ⟨l', hstep'⟩ := goOn_end hs' pace t
        rw [hstep, hstep', hhost]
        exact Or.inl ⟨⟨l', rfl⟩, h.policy, .idle _ _, h.report.add_ok n⟩
    | failing due due' stop c e =>
      cases stop with
      | none =>
        rw [goOn_atRest (Or.inr (Or.inr ⟨_, _, _, hs⟩))]
        exact Or.inr h
      | some stop =>
        obtain ⟨l, hstep⟩ := goOn_end hs pace t
        rw [hstep]
        refine Or.inr ⟨⟨log, hhost⟩, h.policy, ?_, h.report.add_error e⟩
        rw [hs']
        exact .idle _ _
    | stopped =>
      rw [goOn_atRest (Or.inl hs)]
      exact Or.inr h
    | lost =>
      rw [goOn_atRest (Or.inr (Or.inl hs))]
      exact Or.inr h
  | insert d =>
    have hm' : w'.host.store.store = image m := by rw [hhost, ← hm]
    refine Or.inl ?_
    rw [step_insert hσ hm hkeyed d, step_insert hσ hm' hkeyed d]
    refine ⟨⟨log, ?_⟩, h.policy, h.stage, h.report⟩
    simp only [journal, hhost, List.filter_append]
    rfl
  | clock t => exact Or.inl ⟨⟨log, by rw [Patrol.step, hhost]; rfl⟩, h.policy, h.stage, h.report⟩
  | signal s => exact Or.inl ⟨⟨log, by rw [Patrol.step, hhost]; rfl⟩, h.policy, h.stage, h.report⟩
  | fault e => exact Or.inl ⟨⟨log, by rw [Patrol.step, hhost]; rfl⟩, h.policy, h.stage, h.report⟩

/-- **A run without its failed sweeps**: some of the moves of any run make one that ends with
the same store and the same number of deletions. -/
theorem exists_without (hσ : Store.Mirrors opening image) (h : Sound image m₀ w)
    (hw : Without w w) (moves : List Move) :
    ∃ moves', moves'.Sublist moves ∧ Without (run moves w) (run moves' w) := by
  induction moves using List.reverseRecOn with
  | nil => exact ⟨[], List.Sublist.refl [], hw⟩
  | append_singleton moves move ih =>
    obtain ⟨moves', hsub, hwithout⟩ := ih
    obtain ⟨⟨m, hm, hkeyed, -⟩, -⟩ := h.run hσ moves
    rw [run_append, run_cons, run_nil]
    rcases hwithout.step hσ hm hkeyed move with hboth | hleft
    · refine ⟨moves' ++ [move], hsub.append (List.Sublist.refl [move]), ?_⟩
      rw [run_append, run_cons, run_nil]
      exact hboth
    · exact ⟨moves', hsub.trans (List.sublist_append_left moves [move]), hleft⟩

omit [Store σ] in
/-- When it starts, a sweeper has no failed sweep to leave out. -/
theorem without_begin (p : Policy) (uptime now : ℕ) (h : Host σ) :
    Without (begin p uptime now h) (begin p uptime now h) := by
  refine ⟨⟨_, rfl⟩, rfl, ?_, ⟨rfl, rfl, rfl⟩⟩
  rw [begin, start]
  rcases firstTick? uptime p.interval with _ | wait
  exacts [.lost, .idle _ _]

omit [Store σ] in
/-- When one of them has handed over its report, so has the other. -/
theorem Without.heard (h : Without w w') {report : Report}
    (hheard : heard? w.sweeper = some (.ok report)) :
    heard? w'.sweeper = some (.ok ⟨report.ticks - report.failures, report.deleted, 0⟩) := by
  obtain ⟨hticks, hdeleted, hfailures⟩ := h.report
  have hstage := h.stage
  rw [heard?] at hheard ⊢
  split at hheard
  · next hstopped =>
    rw [hstopped] at hstage
    obtain rfl : w.sweeper.report = report := Except.ok.inj (Option.some.inj hheard)
    generalize hs' : w'.sweeper.stage = s' at hstage
    cases hstage
    have hticks' : w'.sweeper.report.ticks =
        w.sweeper.report.ticks - w.sweeper.report.failures := by omega
    rw [← hticks', ← hdeleted, ← hfailures]
  · cases Option.some.inj hheard
  · cases hheard

end Without

end Patrol

/-! ### A sweeper held to the time -/

/-- **A crew of one makes a run**: whatever its sweeper does as time passes, it goes on now and
then. -/
theorem Crew.run_alone (pace : Pace) (awaited : Option ℕ) (deadline fuel number t : ℕ)
    (w : Patrol σ) :
    ∃ moves t', (∀ move ∈ moves, ∃ u, move = Patrol.Move.goOn pace u) ∧
      Crew.run pace awaited deadline fuel ⟨t, [(number, w.sweeper)]⟩ w.host =
        (⟨t', [(number, (Patrol.run moves w).sweeper)]⟩, (Patrol.run moves w).host) := by
  induction fuel generalizing t w with
  | zero => exact ⟨[], t, by simp, rfl⟩
  | succ fuel ih =>
    have hrests : ∃ moves t', (∀ move ∈ moves, ∃ u, move = Patrol.Move.goOn pace u) ∧
        ((⟨t, [(number, w.sweeper)]⟩, w.host) : Crew × Host (Journaled σ)) =
          (⟨t', [(number, (Patrol.run moves w).sweeper)]⟩, (Patrol.run moves w).host) :=
      ⟨[], t, by simp, rfl⟩
    rw [run]
    split
    · exact hrests
    · next u _ =>
      split_ifs
      · -- there is nobody else to go on
        rw [pick?]
        split_ifs with hdue
        · obtain ⟨moves, t', hmoves, hrun⟩ := ih u (Patrol.step (.goOn pace u) w)
          refine ⟨.goOn pace u :: moves, t', ?_, ?_⟩
          · intro move hmove
            rcases List.mem_cons.mp hmove with rfl | hmove
            exacts [⟨u, rfl⟩, hmoves move hmove]
          · rw [Patrol.run_cons, ← hrun]
            dsimp only
            rw [putBack, List.nil_append, ite_self]
            rfl
        · exact hrests
      · exact hrests

namespace Patrol

/-! ### The law of a sweeper -/

variable {opening : σ → Except StoreError Unit × σ} {image : Memory → σ}

/-- **What a sweeper does in all its life.**

It starts on a store with any contents, each document under its id, in memory or in a database,
and then anything may happen, in any order: it goes on, documents are added, the clock is set, the
signal changes, deletions fail or do not.

At every moment the entries in the store are those that were put there, or were there at first,
and that no successful sweep after that had a cutoff past; and all that were ever there are
accounted for. The report that is handed over counts the sweeps of the journal, those that
failed, and what the others deleted. A deletion begins only at a boundary at which the signal is
not raised; at any other the sweeper hands over its report and never deletes again. A sweep
under way is ended and counted whatever happens, and once the signal is raised for good the
sweeper stops after going on twice, unless its deletion never ends. Some of the moves make a run
that has no failed sweep in its journal, and the same store and the same deletions in the end.
And a sweeper that is held to the time makes no other runs than these. -/
theorem sweeper_run_law (hσ : Store.Mirrors opening image) (p : Policy) (uptime now : ℕ)
    (h : Host Memory) (hkeyed : h.store.KeyedById) (moves : List Move) (w : Patrol σ)
    (hw : w = run moves (begin p uptime now (h.mapStore image))) :
    (∃ m, w.host.store.store = image m ∧ (∀ e, e ∈ m.entries ↔ Kept h.store w.journal e) ∧
      Memory.deleted w.journal + m.entries.length =
        h.store.entries.length + Memory.added w.journal) ∧
    (∀ report, heard? w.sweeper = some (.ok report) →
      report.ticks = w.journal.countP isSweep ∧ report.failures = w.journal.countP isFailure ∧
      report.deleted = Memory.deleted w.journal) ∧
    (∀ move, (step move w).journal.filter isSweep = w.journal.filter isSweep ∨
      ∃ pace t due r, move = .goOn pace t ∧ w.sweeper.stage = .idle due ∧
        w.host.signal.cancelled = false ∧
        (step move w).journal = w.journal ++ [.swept (cutoff p.maxAge w.host.now) r]) ∧
    (∀ due pace t more, w.sweeper.stage = .idle due → w.host.signal.cancelled = true →
      heard? (run (.goOn pace t :: more) w).sweeper = some (.ok w.sweeper.report) ∧
      (run (.goOn pace t :: more) w).journal.filter isSweep = w.journal.filter isSweep) ∧
    (∀ due stop c r others pace t, w.sweeper.stage = .sweeping due (some stop) c r →
      (∀ move ∈ others, Move.isGoOn move = false) →
      (run (others ++ [.goOn pace t]) w).sweeper =
        { w.sweeper with stage := .idle due, report := w.sweeper.report.add r }) ∧
    (∀ more, w.sweeper.stage ≠ .lost → (∀ due c r, w.sweeper.stage ≠ .sweeping due none c r) →
      w.host.signal.cancelled = true → (∀ move ∈ more, Move.isSignal move = false) →
      2 ≤ more.countP Move.isGoOn →
      heard? (run more w).sweeper = some (.ok (tally (run more w).journal))) ∧
    (∃ moves', moves'.Sublist moves ∧
      (run moves' (begin p uptime now (h.mapStore image))).journal =
        w.journal.filter (fun event => !isFailure event) ∧
      (run moves' (begin p uptime now (h.mapStore image))).host.store.store =
        w.host.store.store ∧
      (run moves' (begin p uptime now (h.mapStore image))).sweeper.report.deleted =
        w.sweeper.report.deleted ∧
      ∀ report, heard? w.sweeper = some (.ok report) →
        heard? (run moves' (begin p uptime now (h.mapStore image))).sweeper =
          some (.ok ⟨report.ticks - report.failures, report.deleted, 0⟩)) ∧
    (∀ pace awaited deadline fuel number t, ∃ more t',
      (∀ move ∈ more, ∃ u, move = Move.goOn pace u) ∧
      Crew.run pace awaited deadline fuel ⟨t, [(number, w.sweeper)]⟩ w.host =
        (⟨t', [(number, (run more w).sweeper)]⟩, (run more w).host)) := by
  have hsound : Sound image h.store w := by
    rw [hw]
    exact (sound_begin p uptime now hkeyed).run hσ moves
  have hpolicy : w.sweeper.policy = p := by
    rw [hw]
    exact policy_run _ _
  refine ⟨?_, ?_, ?_, ?_, ?_, ?_, ?_, ?_⟩
  · obtain ⟨m, hm, -, haccounts⟩ := hsound.accounts
    exact ⟨m, hm, haccounts.stored, haccounts.balance⟩
  · intro report hheard
    rw [hsound.report_eq hheard]
    exact ⟨rfl, rfl, rfl⟩
  · intro move
    have hstep := journal_step hσ hsound move
    rwa [cutoffNow, hpolicy] at hstep
  · intro due pace t more hstage hsignal
    exact stops_at_boundary hσ hsound hstage hsignal pace t more
  · intro due stop c r others pace t hstage hothers
    exact ends_sweep hstage hothers pace t
  · intro more hlost hhangs hsignal hmore htwice
    obtain ⟨k, hneeds, hk⟩ : ∃ k, toStop? w.sweeper.stage = some k ∧ k ≤ 2 := by
      rcases hstage : w.sweeper.stage with due | ⟨due, _ | stop, c, r⟩ | _ | _
      exacts [⟨1, rfl, by decide⟩, absurd hstage (hhangs due c r), ⟨2, rfl, by decide⟩,
        ⟨0, rfl, by decide⟩, absurd hstage hlost]
    have hstopped := stops hneeds hsignal hmore (hk.trans htwice)
    have hheard : heard? (run more w).sweeper = some (.ok (run more w).sweeper.report) := by
      rw [heard?, hstopped]
    rw [hheard, (hsound.run hσ more).report_eq hheard]
  · obtain ⟨moves', hsub, hwithout⟩ := exists_without hσ (sound_begin p uptime now hkeyed)
      (without_begin p uptime now (h.mapStore image)) moves
    rw [← hw] at hwithout
    obtain ⟨log, hhost⟩ := hwithout.host
    refine ⟨moves', hsub, ?_, ?_, hwithout.report.deleted, fun report => hwithout.heard⟩
    · rw [journal, hhost]
    · rw [hhost]
  · intro pace awaited deadline fuel number t
    exact Crew.run_alone pace awaited deadline fuel number t w

/-- A document that was stored at the beginning of time. -/
def ancient : Document := ⟨"old", "alice", "content", .clamp 0⟩

/-- An hour later, with that document in the store. -/
def hourLater : Host Memory where
  store := ⟨[⟨"old", 0, ancient⟩], 1⟩
  now := .clamp 3600000000
  entropy := ⟨fun _ => 7, 0⟩

/-- The first sweep fails, a document is added, and the second sweep is under way when the
signal is raised. -/
def twoRounds : List Move :=
  [.fault (some (.task "disk on fire")), .goOn (some 0) 60, .fault none,
    .insert ⟨"bob", "content", "young"⟩, .goOn (some 5) 120, .signal { raised := true },
    .goOn (some 0) 126, .goOn (some 0) 126]

/-- A sweeper on a database goes round twice: it reports two sweeps, one failure and one
deletion, and so says the journal; the young document is left. Without the failed sweep it would
have reported one sweep and the same deletion. -/
theorem sweeper_run_law_two_rounds :
    ∃ w, w = run twoRounds (begin .default 0 0 (hourLater.mapStore Memory.toDatabase)) ∧
      heard? w.sweeper = some (.ok ⟨2, 1, 1⟩) ∧ w.journal.countP isSweep = 2 ∧
      w.journal.countP isFailure = 1 ∧ Memory.deleted w.journal = 1 ∧
      ∃ moves', moves'.Sublist twoRounds ∧ heard? (run moves' (begin .default 0 0
        (hourLater.mapStore Memory.toDatabase))).sweeper = some (.ok ⟨1, 1, 0⟩) := by
  have hheard : heard? (run twoRounds (begin .default 0 0
      (hourLater.mapStore Memory.toDatabase))).sweeper = some (.ok ⟨2, 1, 1⟩) := by
    rfl
  have hkeyed : hourLater.store.KeyedById := List.forall_mem_singleton.mpr rfl
  obtain ⟨-, hreport, -, -, -, -, ⟨moves', hsub, -, -, -, hwithout⟩, -⟩ :=
    sweeper_run_law Store.mirrors_database .default 0 0 hourLater hkeyed twoRounds _ rfl
  obtain ⟨hticks, hfailures, hdeleted⟩ := hreport _ hheard
  exact ⟨_, rfl, hheard, hticks.symm, hfailures.symm, hdeleted.symm, moves', hsub,
    hwithout _ hheard⟩

end Patrol

end Vault.Retention
