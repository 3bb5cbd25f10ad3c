import VecuUds.Ecu.Representation
import VecuUds.Server.History

/-!
# The lock-out after wrong keys

The security state of the ECU stays valid at every point of a run whose clock is clear
of the wrap of the deadline.

Within a window shorter than the lock-out, the number of keys that can still be
rejected is a function of the present state alone. No step raises it except an accepted
key and a reset, and every rejected key lowers it; the bound on wrong keys is its
maximum, three.
-/

namespace VecuUds

open Foundation

/-! ## Valid states along a run -/

/-- Every visit of the server preserves the invariant. -/
theorem SecurityState.Valid.securityStep {v : ServerVisit} (valid : v.before.security.Valid)
    (clear : ClearOfWrap v.input.amb.later) (step : SecurityStep v) : v.after.security.Valid := by
  cases step with
  | untouched _ _ same =>
      rw [same]
      exact valid
  | seed _ _ _ effect => exact valid.seedEffect effect
  | accepted _ _ effect => exact valid.keyEffect clear effect
  | rejected _ _ _ effect => exact valid.keyEffect clear effect
  | reset _ fresh =>
      rw [fresh]
      exact reset _
  | relocked _ locked =>
      rw [locked]
      exact valid.relock

/-- What the induction over a run carries along: the DID table of `vecu_init`, which
`serverStep_effect` asks for, and a valid security state. -/
def EcuState.Sound (s : EcuState) : Prop := s.dids = ecuDids ∧ s.security.Valid

theorem EcuState.Sound.step {s : EcuState} (sound : s.Sound) {i : ServerInput}
    (clear : ClearOfWrap i.amb.later) : (serverStep s i).1.Sound := by
  have effect := serverStep_effect sound.1 i
  exact ⟨effect.dids.trans sound.1,
    SecurityState.Valid.securityStep (v := visit serverStep s i) sound.2 clear effect.securityStep⟩

theorem EcuState.Sound.securityStep {s : EcuState} (sound : s.Sound) (i : ServerInput) :
    SecurityStep (visit serverStep s i) :=
  (serverStep_effect sound.1 i).securityStep

/-- The invariant holds at every point of a run clear of the wrap. -/
theorem serverRun_sound (boot : UInt64) (inputs : List ServerInput)
    (clear : ∀ i ∈ inputs, ClearOfWrap i.amb.later) : (serverRun boot inputs).Sound := by
  induction inputs using List.reverseRecOn with
  | nil => exact ⟨rfl, .init⟩
  | append_singleton past i ih =>
      rw [serverRun, run_snoc]
      have sound := ih fun j member => clear j (by simp [member])
      exact sound.step (clear i (by simp))

/-! ## Attempts left in a window -/

/-- How many keys can still be rejected before the time `horizon`, if none is accepted
and the ECU is not reset. A lock-out that ends in time leaves room for three more. -/
def SecurityState.attemptsLeft (horizon : Nat) (s : SecurityState) : Nat :=
  if s.lockUntilMs = 0 then 3 - s.failCount.toNat
  else if horizon ≤ s.lockUntilMs.toNat then 0
  else 3

theorem SecurityState.attemptsLeft_le (horizon : Nat) (s : SecurityState) :
    s.attemptsLeft horizon ≤ 3 := by
  unfold SecurityState.attemptsLeft
  split_ifs <;> omega

/-- Neither an accepted key nor a positive reset: the two events that forget failures. -/
def Undisturbed (v : ServerVisit) : Prop := response v ≠ [0x67, 0x02] ∧ ¬ PositiveReset v

/-- A seed request never raises the number of attempts left. -/
private theorem attemptsLeft_seed {horizon : Nat} {s t : SecurityState} {now : UInt64}
    {entropy : Option UInt32} {r : SeedResult} (effect : SeedEffect now entropy s t r)
    (early : now.toNat < horizon) : t.attemptsLeft horizon ≤ s.attemptsLeft horizon := by
  cases effect with
  | unlocked => exact Nat.le_refl _
  | lockedOut => exact Nat.le_refl _
  | expired level armed due =>
      have before : s.lockUntilMs.toNat < horizon :=
        Nat.lt_of_le_of_lt (UInt64.le_iff_toNat_le.mp due) early
      have full : s.attemptsLeft horizon = 3 := by
        simp [SecurityState.attemptsLeft, armed, Nat.not_le.mpr before]
      rw [full]
      exact SecurityState.attemptsLeft_le _ _
  | fresh => exact Nat.le_refl _

/-- A rejected key costs an attempt; the third one locks out past the horizon. Only
that one can leave none. -/
private theorem attemptsLeft_key {horizon : Nat} {s t : SecurityState} {now later : UInt64}
    {key : UInt32} {nrc : UdsNrc} (valid : s.Valid) (clear : ClearOfWrap later)
    (late : horizon ≤ later.toNat + 10000)
    (effect : KeyEffect now later s key t (.error nrc))
    (judged : nrc = .invalidKey ∨ nrc = .exceededNumberOfAttempts) :
    t.attemptsLeft horizon + 1 ≤ s.attemptsLeft horizon ∧
      (t.attemptsLeft horizon = 0 → nrc = .exceededNumberOfAttempts) := by
  cases effect with
  | outOfSequence => simp at judged
  | lockedOut => simp at judged
  | invalid issued wrong few =>
      obtain ⟨-, unarmed, fails⟩ := valid.of_issued issued
      have below : s.failCount.toNat < 3 := UInt8.lt_iff_toNat_lt.mp fails
      have count : (s.failCount + 1).toNat = s.failCount.toNat + 1 := by
        rw [UInt8.toNat_add]
        exact Nat.mod_eq_of_lt (by simp; omega)
      have room : (s.failCount + 1).toNat < 3 := UInt8.lt_iff_toNat_lt.mp few
      simp only [SecurityState.attemptsLeft, unarmed, if_true]
      omega
  | exceeded issued wrong many =>
      obtain ⟨-, unarmed, fails⟩ := valid.of_issued issued
      have below : s.failCount.toNat < 3 := UInt8.lt_iff_toNat_lt.mp fails
      have beyond : horizon ≤ (later + securityLockDurationMs).toNat := by
        rw [toNat_deadline clear]
        exact late
      refine ⟨?_, fun _ => rfl⟩
      simp only [SecurityState.attemptsLeft, deadline_ne_zero clear, if_false, beyond, if_true,
        unarmed]
      omega

private theorem not_rejects_of_head {v : ServerVisit} (head : byteAt (response v) 0 ≠ 0x7F) :
    ¬ RejectsKey v := by
  rintro (rejected | rejected)
  · exact head (by rw [rejected]; rfl)
  · exact head (by rw [rejected]; rfl)

/-- One undisturbed visit pays for the key it rejects. -/
theorem attemptsLeft_step {horizon : Nat} {v : ServerVisit} (step : SecurityStep v)
    (valid : v.before.security.Valid) (clear : ClearOfWrap v.input.amb.later)
    (early : v.input.amb.now.toNat < horizon) (late : horizon ≤ v.input.amb.later.toNat + 10000)
    (calm : Undisturbed v) :
    v.after.security.attemptsLeft horizon + (if RejectsKey v then 1 else 0) ≤
      v.before.security.attemptsLeft horizon := by
  cases step with
  | untouched quiet keeps same =>
      rw [same, if_neg fun rejects => quiet.2 (.inr rejects)]
      exact Nat.le_refl _
  | seed asked result seed effect carried answered =>
      have unjudged : ¬ RejectsKey v :=
        not_rejects_of_head (by rw [answered]; exact (by decide : (0x67 : UInt8) ≠ 0x7F))
      rw [if_neg unjudged]
      exact attemptsLeft_seed effect early
  | accepted key asked effect answered => exact absurd answered calm.1
  | rejected key nrc judged effect answered =>
      have paid := (attemptsLeft_key valid clear late effect judged).1
      refine Nat.le_trans (Nat.add_le_add_left ?_ _) paid
      split <;> omega
  | reset positive => exact absurd positive calm.2
  | relocked silent locked =>
      have unjudged : ¬ RejectsKey v := not_rejects_of_head (by rw [silent]; decide)
      rw [locked, if_neg unjudged]
      exact Nat.le_refl _

/-- Over a whole window, rejected keys and remaining attempts stay within what the
first state allows. -/
theorem attemptsLeft_run {horizon : Nat} (win : List ServerInput) {s : EcuState} (sound : s.Sound)
    (timed : ∀ i ∈ win, ClearOfWrap i.amb.later ∧ i.amb.now.toNat < horizon ∧
      horizon ≤ i.amb.later.toNat + 10000)
    (calm : ∀ v ∈ trace serverStep s win, Undisturbed v) :
    (trace serverStep s win).countP (fun v => RejectsKey v) +
        (run serverStep s win).security.attemptsLeft horizon ≤
      s.security.attemptsLeft horizon := by
  induction win generalizing s with
  | nil => simp
  | cons i rest ih =>
      obtain ⟨clear, early, late⟩ := timed i (by simp)
      have paid : (serverStep s i).1.security.attemptsLeft horizon +
          (if RejectsKey (visit serverStep s i) then 1 else 0) ≤
            s.security.attemptsLeft horizon :=
        attemptsLeft_step (sound.securityStep i) sound.2 clear early late
          (calm (visit serverStep s i) List.mem_cons_self)
      have later := ih (sound.step clear) (fun j member => timed j (by simp [member]))
        (fun v member => calm v (by simp [member]))
      rw [trace_cons, List.countP_cons, run_cons]
      simp only [decide_eq_true_eq] at later ⊢
      omega

/-- A rejected key that leaves no attempt is answered with `exceededNumberOfAttempts`. -/
theorem exceeded_of_exhausted {horizon : Nat} {v : ServerVisit} (step : SecurityStep v)
    (valid : v.before.security.Valid) (clear : ClearOfWrap v.input.amb.later)
    (late : horizon ≤ v.input.amb.later.toNat + 10000) (rejects : RejectsKey v)
    (exhausted : v.after.security.attemptsLeft horizon = 0) :
    response v = [0x7F, 0x27, 0x36] := by
  cases step with
  | untouched quiet => exact absurd (.inr rejects) quiet.2
  | seed asked result seed effect carried answered =>
      exact absurd rejects
        (not_rejects_of_head (by rw [answered]; exact (by decide : (0x67 : UInt8) ≠ 0x7F)))
  | accepted key asked effect answered =>
      exact absurd rejects (not_rejects_of_head (by rw [answered]; decide))
  | rejected key nrc judged effect answered =>
      rw [answered, (attemptsLeft_key valid clear late effect judged).2 exhausted]
      rfl
  | reset positive =>
      exact absurd rejects (not_rejects_of_head (by rw [positive]; decide))
  | relocked silent => exact absurd rejects (not_rejects_of_head (by rw [silent]; decide))

/-! ## The lock-out itself -/

/-- A lock-out with this deadline is armed. -/
def SecurityState.LockedUntil (deadline : UInt64) (s : SecurityState) : Prop :=
  s.lockUntilMs = deadline ∧ deadline ≠ 0

/-- `exceededNumberOfAttempts` arms the lock-out. -/
theorem lockedUntil_of_exceeded {v : ServerVisit} (step : SecurityStep v)
    (clear : ClearOfWrap v.input.amb.later) (exceeded : response v = [0x7F, 0x27, 0x36]) :
    v.after.security.LockedUntil (v.input.amb.later + securityLockDurationMs) := by
  have rejects : RejectsKey v := .inr exceeded
  cases step with
  | untouched quiet => exact absurd (.inr rejects) quiet.2
  | rejected key nrc judged effect answered =>
      generalize v.after.security = t at effect ⊢
      cases effect with
      | outOfSequence => simp at judged
      | lockedOut => simp at judged
      | invalid => exact absurd (answered.symm.trans exceeded) (by decide)
      | exceeded => exact ⟨rfl, deadline_ne_zero clear⟩
  | seed asked result seed effect carried answered => simp [answered] at exceeded
  | accepted key asked effect answered => simp [answered] at exceeded
  | reset positive => exact absurd rejects (not_rejects_of_head (by rw [positive]; decide))
  | relocked silent => simp [silent] at exceeded

/-- Before the deadline only a reset changes the lock-out, and no seed is handed out. -/
theorem SecurityState.LockedUntil.step {deadline : UInt64} {v : ServerVisit}
    (locked : v.before.security.LockedUntil deadline) (valid : v.before.security.Valid)
    (step : SecurityStep v) (early : v.input.amb.now < deadline) (unreset : ¬ PositiveReset v) :
    v.after.security.LockedUntil deadline ∧ ∀ seed, ¬ IssuesSeed v seed := by
  have armed : v.before.security.lockUntilMs ≠ 0 := by
    rw [locked.1]
    exact locked.2
  obtain ⟨level, spent⟩ := valid.locked armed
  have unjudged : ∀ {key : UInt32} {r : Except UdsNrc Unit},
      KeyEffect v.input.amb.now v.input.amb.later v.before.security key v.after.security r →
        r = .error .requestSequenceError := by
    intro key r effect
    generalize v.after.security = t at effect
    cases effect with
    | outOfSequence => rfl
    | lockedOut issued | accepted issued | invalid issued | exceeded issued =>
        exact absurd (spent.symm.trans issued) (by decide)
  cases step with
  | untouched quiet keeps same =>
      rw [same]
      exact ⟨locked, quiet.1⟩
  | seed asked result seed effect carried =>
      generalize v.after.security = t at effect
      cases effect with
      | unlocked above =>
          rw [level] at above
          exact absurd above (by decide)
      | lockedOut => cases carried
      | expired _ _ due =>
          rw [locked.1] at due
          exact absurd early (UInt64.not_lt.mpr due)
      | fresh _ unarmed => exact absurd unarmed armed
  | accepted key asked effect => exact absurd (unjudged effect) (by simp)
  | rejected key nrc judged effect =>
      have same := unjudged effect
      simp only [Except.error.injEq] at same
      subst same
      simp at judged
  | reset positive => exact absurd positive unreset
  | relocked silent relocked =>
      rw [relocked]
      refine ⟨locked, ?_⟩
      rintro seed ⟨-, -, answered⟩
      simp [silent] at answered

/-- The lock-out survives every run that ends before its deadline. -/
theorem SecurityState.LockedUntil.run {deadline : UInt64} (wait : List ServerInput) {s : EcuState}
    (sound : s.Sound) (locked : s.security.LockedUntil deadline)
    (timed : ∀ i ∈ wait, ClearOfWrap i.amb.later ∧ i.amb.now < deadline)
    (unreset : ∀ v ∈ trace serverStep s wait, ¬ PositiveReset v) :
    ∀ v ∈ trace serverStep s wait, ∀ seed, ¬ IssuesSeed v seed := by
  induction wait generalizing s with
  | nil => simp
  | cons i rest ih =>
      obtain ⟨clear, early⟩ := timed i (by simp)
      obtain ⟨still, silent⟩ := SecurityState.LockedUntil.step (v := visit serverStep s i) locked
        sound.2 (sound.securityStep i) early (unreset (visit serverStep s i) List.mem_cons_self)
      intro v member
      rcases List.mem_cons.mp member with rfl | member
      · exact silent
      · exact ih (sound.step clear) still (fun j member => timed j (by simp [member]))
          (fun w member => unreset w (by simp [member])) v member

/-! ## The bound over whole runs -/

/-- Every reading of an input list lies after the reading it starts from. -/
theorem ClockFrom.le {t : UInt64} {inputs : List ServerInput} (clock : ClockFrom t inputs) :
    ∀ i ∈ inputs, t ≤ i.amb.now ∧ i.amb.now ≤ i.amb.later := by
  induction inputs generalizing t with
  | nil => simp
  | cons first rest ih =>
      obtain ⟨start, within, later⟩ := clock
      intro i member
      rcases List.mem_cons.mp member with rfl | member
      · exact ⟨start, within⟩
      · obtain ⟨after, ordered⟩ := ih later i member
        exact ⟨UInt64.le_trans (UInt64.le_trans start within) after, ordered⟩

/-- The last input of a list has the latest reading. -/
theorem ClockFrom.le_last {t : UInt64} {wait : List ServerInput} {j : ServerInput}
    (clock : ClockFrom t (wait ++ [j])) : ∀ i ∈ wait, i.amb.now ≤ j.amb.now := by
  induction wait generalizing t with
  | nil => simp
  | cons first rest ih =>
      obtain ⟨-, within, later⟩ := clock
      intro i member
      rcases List.mem_cons.mp member with rfl | member
      · exact UInt64.le_trans within (later.le j (by simp)).1
      · exact ih later i member

/-- All readings of these inputs lie in an interval shorter than the lock-out. -/
def WithinLockDuration (win : List ServerInput) : Prop :=
  ∀ i ∈ win, ∀ j ∈ win, j.amb.later.toNat < i.amb.now.toNat + securityLockDurationMs.toNat

instance (win : List ServerInput) : Decidable (WithinLockDuration win) :=
  inferInstanceAs (Decidable (∀ i ∈ win, ∀ j ∈ win, _ < _))

/-- The first reading of a short window sets a horizon that suits all of it. -/
private theorem exists_horizon {t : UInt64} {win : List ServerInput} (clock : ClockFrom t win)
    (short : WithinLockDuration win) :
    ∃ horizon, ∀ i ∈ win, i.amb.now.toNat < horizon ∧ horizon ≤ i.amb.later.toNat + 10000 := by
  cases win with
  | nil => exact ⟨0, by simp⟩
  | cons first rest =>
      refine ⟨first.amb.now.toNat + 10000, ?_⟩
      intro i member
      have reach : i.amb.later.toNat < first.amb.now.toNat + 10000 :=
        short first (by simp) i member
      have ordered := UInt64.le_iff_toNat_le.mp (clock.le i member).2
      refine ⟨by omega, ?_⟩
      rcases List.mem_cons.mp member with rfl | member
      · omega
      · have within := UInt64.le_iff_toNat_le.mp clock.2.1
        have after := UInt64.le_iff_toNat_le.mp (clock.2.2.le i member).1
        omega

/-- **Anti-brute-force**, for every window of a run in which the ECU is not reset: within
less than the lock-out duration and without an accepted key at most three keys are
rejected, the third of them with `exceededNumberOfAttempts`; and from that answer on no
seed is handed out until the lock-out duration has passed. -/
theorem anti_brute_force (boot : UInt64) (past win : List ServerInput)
    (clock : ClockFrom boot (past ++ win))
    (clear : ∀ i ∈ past ++ win, ClearOfWrap i.amb.later)
    (unreset : ∀ v ∈ trace serverStep (serverRun boot past) win, ¬ PositiveReset v) :
    (WithinLockDuration win →
      (∀ v ∈ trace serverStep (serverRun boot past) win, response v ≠ [0x67, 0x02]) →
        (trace serverStep (serverRun boot past) win).countP (fun v => RejectsKey v) ≤ 3 ∧
        ∀ first last, win = first ++ [last] →
          (trace serverStep (serverRun boot past) win).countP (fun v => RejectsKey v) = 3 →
          RejectsKey (visit serverStep (serverRun boot (past ++ first)) last) →
            response (visit serverStep (serverRun boot (past ++ first)) last) =
              [0x7F, 0x27, 0x36]) ∧
    ∀ third wait j, win = third :: (wait ++ [j]) →
      response (visit serverStep (serverRun boot past) third) = [0x7F, 0x27, 0x36] →
      j.amb.now.toNat < third.amb.later.toNat + securityLockDurationMs.toNat →
        ∀ seed,
          ¬ IssuesSeed (visit serverStep (serverRun boot (past ++ third :: wait)) j) seed := by
  have sound : (serverRun boot past).Sound :=
    serverRun_sound boot past fun i member => clear i (by simp [member])
  have clears : ∀ i ∈ win, ClearOfWrap i.amb.later := by
    intro i member
    exact clear i (by simp [member])
  have clockWin := (clockFrom_append.mp clock).2
  constructor
  · intro short unaccepted
    obtain ⟨horizon, timed⟩ := exists_horizon clockWin short
    have bound := attemptsLeft_run win sound (fun i member => ⟨clears i member, timed i member⟩)
      (fun v member => ⟨unaccepted v member, unreset v member⟩)
    have most := (serverRun boot past).security.attemptsLeft_le horizon
    refine ⟨by omega, ?_⟩
    intro first last split three rejects
    have exhausted : (run serverStep (serverRun boot past) win).security.attemptsLeft horizon = 0 :=
      by omega
    subst split
    rw [run_snoc, serverRun, ← run_append] at exhausted
    have prior : (serverRun boot (past ++ first)).Sound := by
      refine serverRun_sound boot (past ++ first) fun i member => clear i ?_
      rw [← List.append_assoc]
      exact List.mem_append_left _ member
    exact exceeded_of_exhausted (prior.securityStep last) prior.2 (clears last (by simp))
      (timed last (by simp)).2 rejects exhausted
  · intro third wait j split exceeded early
    subst split
    have thirdClear := clears third (by simp)
    have locked := lockedUntil_of_exceeded (sound.securityStep third) thirdClear exceeded
    have deadline := toNat_deadline thirdClear
    have last : j.amb.now < third.amb.later + securityLockDurationMs := by
      rw [UInt64.lt_iff_toNat_lt, deadline]
      exact early
    have timed : ∀ i ∈ wait ++ [j], ClearOfWrap i.amb.later ∧
        i.amb.now < third.amb.later + securityLockDurationMs := by
      intro i member
      refine ⟨clears i (List.mem_cons_of_mem _ member), ?_⟩
      rcases List.mem_append.mp member with waited | final
      · exact UInt64.lt_of_le_of_lt (clockWin.2.2.le_last i waited) last
      · rw [List.mem_singleton.mp final]
        exact last
    have silent := locked.run (wait ++ [j]) (sound.step thirdClear) timed
      (fun v member => unreset v (List.mem_cons_of_mem _ member))
    apply silent
    have point : serverRun boot (past ++ third :: wait) =
        run serverStep (serverStep (serverRun boot past) third).1 wait := by
      rw [serverRun, run_append, run_cons]
      rfl
    rw [trace_snoc, point]
    exact List.mem_append_right _ (List.mem_singleton_self _)

/-- A seed request and a wrong key for it, while the clock stands at `t`. -/
def wrongGuess (t : UInt64) : List ServerInput :=
  [.requestAt t [0x27, 0x01], .requestAt t [0x27, 0x02, 0x00, 0x00, 0x00, 0x00]]

/-- An extended session with two wrong keys and a third seed on its way. -/
def twoWrongGuesses : List ServerInput :=
  .requestAt 0 [0x10, 0x03] :: (wrongGuess 1 ++ wrongGuess 2 ++ [.requestAt 3 [0x27, 0x01]])

theorem anti_brute_force_three_guesses :
    (trace serverStep (serverRun 0 [.requestAt 0 [0x10, 0x03]])
        (wrongGuess 1 ++ wrongGuess 2 ++ wrongGuess 3)).countP (fun v => RejectsKey v) ≤ 3 ∧
      ∀ seed, ¬ IssuesSeed (visit serverStep (serverRun 0
        (twoWrongGuesses ++ .requestAt 3 [0x27, 0x02, 0x00, 0x00, 0x00, 0x00] ::
          [.requestAt 4 [0x3E, 0x00]])) (.requestAt 10002 [0x27, 0x01])) seed := by
  constructor
  · have bound := (anti_brute_force 0 [.requestAt 0 [0x10, 0x03]]
      (wrongGuess 1 ++ wrongGuess 2 ++ wrongGuess 3) (by decide) (by decide)
      (by decide +kernel)).1
    exact (bound (by decide) (by decide +kernel)).1
  · have silent := (anti_brute_force 0 twoWrongGuesses
      (.requestAt 3 [0x27, 0x02, 0x00, 0x00, 0x00, 0x00] ::
        ([.requestAt 4 [0x3E, 0x00]] ++ [.requestAt 10002 [0x27, 0x01]]))
      (by decide) (by decide) (by decide +kernel)).2
    exact silent _ _ _ rfl (by decide +kernel) (by decide)

/-- A reset after the third wrong key gives a fourth attempt within the same
millisecond. -/
theorem reset_allows_fourth_guess :
    ¬ ∀ (boot : UInt64) (past win : List ServerInput), ClockFrom boot (past ++ win) →
      WithinLockDuration win →
      (∀ v ∈ trace serverStep (serverRun boot past) win, response v ≠ [0x67, 0x02]) →
        (trace serverStep (serverRun boot past) win).countP (fun v => RejectsKey v) ≤ 3 := by
  intro claim
  have bound := claim 0 [.requestAt 0 [0x10, 0x03]]
    (wrongGuess 0 ++ wrongGuess 0 ++ wrongGuess 0 ++
      [.requestAt 0 [0x11, 0x01], .requestAt 0 [0x10, 0x03]] ++ wrongGuess 0)
    (by decide) (by decide) (by decide +kernel)
  revert bound
  decide +kernel

end VecuUds
