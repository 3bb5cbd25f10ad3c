import VecuUds.Server.Basic

/-!
# The S3 timer against the dispatcher

`s3_thread_main` reads the session, the clock and the tester-present timestamp in
separate critical sections and acts in two further ones. The dispatcher may refresh the
timestamp between any two of them, through `vecu_mark_tester_present` or
`vecu_set_session`. A run is a list of such steps, each at a clock reading, the readings
not decreasing.

The timer reverts a session on the strength of a timestamp that may be stale by then.
What holds is stated for the runs in which no refresh overtakes the decision.
-/

namespace VecuUds

open Foundation

/-- The critical section that the S3 thread enters next, with the local `now` once it
is read. The sleep between two iterations is any delay of the first one. -/
inductive S3Pc where
  | session
  | clock
  | timestamp (now : UInt64)
  | revert
  | relock
  deriving DecidableEq

structure S3System where
  ecu : EcuState
  pc : S3Pc

inductive S3Action where
  | s3
  | markTesterPresent
  | setSession (session : UInt8)
  deriving DecidableEq

/-- A step and the clock reading it takes, if it takes one. -/
structure S3Input where
  action : S3Action
  now : UInt64

/-- The first action of a timeout: back to the default session. -/
def s3Revert (t : UInt64) (s : EcuState) : EcuState := vecuSetSession t s udsSessionDefault

/-- The second action of a timeout: relock security. -/
def s3Relock (s : EcuState) : EcuState := { s with security := s.security.relock }

section Relock

variable (s : EcuState)

@[simp] theorem s3Relock_dids : (s3Relock s).dids = s.dids := rfl

@[simp] theorem s3Relock_dtcs : (s3Relock s).dtcs = s.dtcs := rfl

@[simp] theorem s3Relock_security : (s3Relock s).security = s.security.relock := rfl

end Relock

/-- One critical section of `s3_thread_main`. -/
def s3Section (s : S3System) (t : UInt64) : S3System :=
  match s.pc with
  | .session => { s with pc := if s.ecu.session ≠ udsSessionDefault then .clock else .session }
  | .clock => { s with pc := .timestamp t }
  | .timestamp now =>
      { s with
        pc := if now - s.ecu.lastTesterPresentMs > s3TimeoutMs then .revert else .session }
  | .revert => ⟨s3Revert t s.ecu, .relock⟩
  | .relock => ⟨s3Relock s.ecu, .session⟩

def s3Step (s : S3System) (i : S3Input) : S3System × Unit :=
  (match i.action with
    | .s3 => s3Section s i.now
    | .markTesterPresent => { s with ecu := vecuMarkTesterPresent i.now s.ecu }
    | .setSession session => { s with ecu := vecuSetSession i.now s.ecu session }, ())

abbrev S3Visit := Visit S3System S3Input Unit

def S3System.start (boot : UInt64) : S3System := ⟨vecuInit boot, .session⟩

def s3Run (boot : UInt64) (inputs : List S3Input) : S3System := run s3Step (.start boot) inputs

def s3Trace (boot : UInt64) (inputs : List S3Input) : List S3Visit :=
  trace s3Step (.start boot) inputs

/-- The clock readings of the inputs do not decrease, starting from `t`. -/
def S3Clock : UInt64 → List S3Input → Prop
  | _, [] => True
  | t, i :: rest => t ≤ i.now ∧ S3Clock i.now rest

/-- The dispatcher completed a TesterPresent or a session change. -/
def S3Input.Refreshes (i : S3Input) : Prop := i.action ≠ .s3

instance (i : S3Input) : Decidable i.Refreshes := inferInstanceAs (Decidable (_ ≠ _))

/-- The S3 thread sets the session to default. -/
def Reverts (v : S3Visit) : Prop := v.input.action = .s3 ∧ v.before.pc = .revert

instance (v : S3Visit) : Decidable (Reverts v) := inferInstanceAs (Decidable (_ ∧ _))

/-- A refresh that the decision of the S3 thread cannot see: the decision is made, or it
will compare this refresh with an older clock reading. -/
def Overtakes (v : S3Visit) : Prop :=
  v.input.Refreshes ∧
    (v.before.pc = .revert ∨ ∃ now, v.before.pc = .timestamp now ∧ now < v.input.now)

/-! ## Without interruption -/

/-- An iteration that nothing interrupts is `s3Iteration`. -/
theorem s3Iteration_of_sections (amb : Ambient) (s : EcuState) :
    ∃ k ≤ 5, run s3Step ⟨s, .session⟩
      ([⟨.s3, amb.now⟩, ⟨.s3, amb.now⟩, ⟨.s3, amb.now⟩, ⟨.s3, amb.later⟩,
        ⟨.s3, amb.later⟩].take k) = ⟨s3Iteration amb s, .session⟩ := by
  by_cases active : s.session = udsSessionDefault
  · refine ⟨1, by decide, ?_⟩
    simp [s3Step, s3Section, s3Iteration, active]
  · by_cases expired : amb.now - s.lastTesterPresentMs > s3TimeoutMs
    · refine ⟨5, by decide, ?_⟩
      simp [s3Step, s3Section, s3Iteration, active, expired, s3Revert, s3Relock]
    · refine ⟨3, by decide, ?_⟩
      simp [s3Step, s3Section, s3Iteration, active, expired]

/-! ## What the timer knows -/

/-- What the readings of a run say about its present state, while no refresh has
overtaken a decision. `latest` bounds every reading so far. -/
structure S3Known (latest : UInt64) (past : List S3Input) (s : S3System) : Prop where
  stored : s.ecu.lastTesterPresentMs ≤ latest
  refreshed : ∀ i ∈ past, i.Refreshes → i.now ≤ s.ecu.lastTesterPresentMs
  sampled : ∀ now, s.pc = .timestamp now → s.ecu.lastTesterPresentMs ≤ now ∧ now ≤ latest
  decided : s.pc = .revert →
    s.ecu.lastTesterPresentMs.toNat + s3TimeoutMs.toNat < latest.toNat

/-- With the timestamp not after the sampled clock, the unsigned difference is the
elapsed time. -/
theorem elapsed_of_expired {now last : UInt64} (ordered : last ≤ now)
    (expired : now - last > s3TimeoutMs) : last.toNat + s3TimeoutMs.toNat < now.toNat := by
  have gap : (now - last).toNat = now.toNat - last.toNat := UInt64.toNat_sub_of_le now last ordered
  have above := UInt64.lt_iff_toNat_lt.mp expired
  have := UInt64.le_iff_toNat_le.mp ordered
  omega

section Known

variable {latest : UInt64} {past : List S3Input} {s : S3System} {t : UInt64}

/-- The knowledge stays true as time passes. -/
theorem S3Known.later (known : S3Known latest past s) (order : latest ≤ t) :
    S3Known t past s where
  stored := UInt64.le_trans known.stored order
  refreshed := known.refreshed
  sampled := fun now pc =>
    ⟨(known.sampled now pc).1, UInt64.le_trans (known.sampled now pc).2 order⟩
  decided := fun pc => Nat.lt_of_lt_of_le (known.decided pc) (UInt64.le_iff_toNat_le.mp order)

/-- A refresh that overtakes no decision. -/
theorem S3Known.refresh (known : S3Known t past s) {i : S3Input} (reading : i.now = t)
    {ecu : EcuState} (stamped : ecu.lastTesterPresentMs = t)
    (undecided : s.pc ≠ .revert) (seen : ∀ now, s.pc = .timestamp now → t ≤ now) :
    S3Known t (past ++ [i]) ⟨ecu, s.pc⟩ where
  stored := by
    rw [stamped]
    exact UInt64.le_refl t
  refreshed := by
    intro j member refreshes
    rw [stamped]
    rcases List.mem_append.mp member with before | last
    · exact UInt64.le_trans (known.refreshed j before refreshes) known.stored
    · rw [List.mem_singleton.mp last, reading]
      exact UInt64.le_refl t
  sampled := by
    intro now pc
    rw [stamped]
    exact ⟨seen now pc, (known.sampled now pc).2⟩
  decided := fun pc => absurd pc undecided

/-- A critical section of the S3 thread. -/
theorem S3Known.s3 (known : S3Known t past s) {i : S3Input} (own : i.action = .s3) :
    S3Known t (past ++ [i]) (s3Section s t) := by
  have kept : ∀ j ∈ past ++ [i], j.Refreshes → j.now ≤ s.ecu.lastTesterPresentMs := by
    intro j member refreshes
    rcases List.mem_append.mp member with before | last
    · exact known.refreshed j before refreshes
    · rw [List.mem_singleton.mp last] at refreshes
      exact absurd own refreshes
  -- Only the first three sections leave the timestamp alone; `idle` serves them all.
  have idle : ∀ pc, (∀ now, pc = .timestamp now → s.ecu.lastTesterPresentMs ≤ now ∧ now ≤ t) →
      (pc = .revert → s.ecu.lastTesterPresentMs.toNat + s3TimeoutMs.toNat < t.toNat) →
        S3Known t (past ++ [i]) ⟨s.ecu, pc⟩ :=
    fun _ sampled decided => ⟨known.stored, kept, sampled, decided⟩
  unfold s3Section
  cases pc : s.pc with
  | session => refine idle _ ?_ ?_ <;> split_ifs <;> simp
  | clock =>
      refine idle _ ?_ (by simp)
      rintro now same
      cases same
      exact ⟨known.stored, UInt64.le_refl t⟩
  | timestamp now =>
      obtain ⟨ordered, sample⟩ := known.sampled now pc
      refine idle _ (by split_ifs <;> simp) ?_
      split_ifs with expired
      · intro _
        exact Nat.lt_of_lt_of_le (elapsed_of_expired ordered expired)
          (UInt64.le_iff_toNat_le.mp sample)
      · simp
  | revert =>
      refine ⟨UInt64.le_refl t, ?_, by simp, by simp⟩
      intro j member refreshes
      exact UInt64.le_trans (kept j member refreshes) known.stored
  | relock => exact ⟨known.stored, kept, by simp, by simp⟩

/-- Every step that overtakes no decision, at a reading not before the latest one. -/
theorem S3Known.step (known : S3Known latest past s) {i : S3Input} (order : latest ≤ i.now)
    (behind : ¬ Overtakes (visit s3Step s i)) :
    S3Known i.now (past ++ [i]) (s3Step s i).1 := by
  have present := known.later order
  have unseen : i.Refreshes → s.pc ≠ .revert ∧ ∀ now, s.pc = .timestamp now → i.now ≤ now := by
    intro refreshes
    refine ⟨fun pc => behind ⟨refreshes, .inl pc⟩, ?_⟩
    intro now pc
    by_contra late
    exact behind ⟨refreshes, .inr ⟨now, pc, UInt64.not_le.mp late⟩⟩
  unfold s3Step
  cases action : i.action with
  | s3 => exact present.s3 action
  | markTesterPresent =>
      have refreshes : i.Refreshes := by simp [S3Input.Refreshes, action]
      exact present.refresh rfl rfl (unseen refreshes).1 (unseen refreshes).2
  | setSession session =>
      have refreshes : i.Refreshes := by simp [S3Input.Refreshes, action]
      exact present.refresh rfl rfl (unseen refreshes).1 (unseen refreshes).2

/-- Over a whole run, up to the next reading. -/
theorem S3Known.run (known : S3Known latest past s) (inputs : List S3Input) {i : S3Input}
    (clock : S3Clock latest (inputs ++ [i]))
    (behind : ∀ v ∈ trace s3Step s inputs, ¬ Overtakes v) :
    S3Known i.now (past ++ inputs) (Foundation.run s3Step s inputs) := by
  induction inputs generalizing latest past s with
  | nil =>
      rw [List.append_nil]
      exact known.later clock.1
  | cons j rest ih =>
      have next := known.step clock.1 (behind (visit s3Step s j) List.mem_cons_self)
      have final := ih next clock.2 fun v member => behind v (List.mem_cons_of_mem _ member)
      rwa [List.append_assoc] at final

end Known

theorem S3Known.start (boot : UInt64) : S3Known boot [] (.start boot) where
  stored := UInt64.le_refl boot
  refreshed := by simp
  sampled := by simp [S3System.start]
  decided := by simp [S3System.start]

/-- **The timer and the refresh.** In every run in which no refresh overtakes a decision
of the S3 thread: when the thread sets the session to default, every refresh that the
dispatcher has completed lies more than the S3 timeout back. -/
theorem s3_respects_refresh (boot : UInt64) (past : List S3Input) (i : S3Input)
    (clock : S3Clock boot (past ++ [i]))
    (behind : ∀ v ∈ s3Trace boot past, ¬ Overtakes v)
    (reverts : Reverts (visit s3Step (s3Run boot past) i)) :
    ∀ j ∈ past, j.Refreshes → j.now.toNat + s3TimeoutMs.toNat < i.now.toNat := by
  have known : S3Known i.now ([] ++ past) (s3Run boot past) :=
    (S3Known.start boot).run past clock behind
  intro j member refreshes
  have seen := UInt64.le_iff_toNat_le.mp (known.refreshed j (by simpa using member) refreshes)
  have decided := known.decided reverts.2
  omega

instance decidableS3Clock : (t : UInt64) → (inputs : List S3Input) → Decidable (S3Clock t inputs)
  | _, [] => .isTrue trivial
  | _, i :: rest =>
      have := decidableS3Clock i.now rest
      inferInstanceAs (Decidable (_ ∧ _))

/-- An extended session at time zero, a TesterPresent a second later, and an S3
iteration long after. -/
def expiredSession : List S3Input :=
  [⟨.setSession udsSessionExtended, 0⟩, ⟨.markTesterPresent, 1000⟩, ⟨.s3, 6001⟩, ⟨.s3, 6001⟩,
    ⟨.s3, 6001⟩]

theorem s3_respects_refresh_expired :
    Reverts (visit s3Step (s3Run 0 expiredSession) ⟨.s3, 6001⟩) ∧
      ∀ j ∈ expiredSession, j.Refreshes → j.now.toNat + s3TimeoutMs.toNat < 6001 := by
  have reverts : Reverts (visit s3Step (s3Run 0 expiredSession) ⟨.s3, 6001⟩) := by decide +kernel
  refine ⟨reverts, s3_respects_refresh 0 expiredSession ⟨.s3, 6001⟩ (by decide) ?_ reverts⟩
  simp [s3Trace, expiredSession, Overtakes, S3Input.Refreshes, visit, s3Step, S3System.start]

/-- A TesterPresent between the decision and the revert is overridden at once. -/
theorem s3_overrides_refresh :
    ¬ ∀ (boot : UInt64) (past : List S3Input) (i : S3Input), S3Clock boot (past ++ [i]) →
      Reverts (visit s3Step (s3Run boot past) i) →
        ∀ j ∈ past, j.Refreshes → j.now.toNat + s3TimeoutMs.toNat < i.now.toNat := by
  intro claim
  have apart := claim 0 (expiredSession ++ [⟨.markTesterPresent, 6001⟩]) ⟨.s3, 6001⟩ (by decide)
    (by decide +kernel) ⟨.markTesterPresent, 6001⟩ (by simp) (by decide)
  revert apart
  decide

end VecuUds
