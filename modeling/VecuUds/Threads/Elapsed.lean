import VecuUds.Threads.S3

/-!
# The elapsed time of the S3 comparison

`s3_thread_main` compares `now - last_tp` with the timeout as unsigned 64-bit numbers.
The clock is sampled first and the timestamp fetched in a later critical section, so a
refresh in between may store a later reading, and the difference wraps to a huge value.

Every run keeps the stored timestamp within the readings so far and not before any
refresh. That decides when the difference is the elapsed time: exactly when none of the
refreshes since the sample carries a later reading than the sample.
-/

namespace VecuUds

open Foundation

/-- What the comparison relies on for a sampled clock and a fetched timestamp: the
difference is the elapsed time, and a session that counts as expired has seen no refresh
within the timeout. -/
structure ElapsedExact (past : List S3Input) (now last : UInt64) : Prop where
  ordered : last ≤ now
  difference : (now - last).toNat = now.toNat - last.toNat
  expired : now - last > s3TimeoutMs →
    ∀ i ∈ past, i.Refreshes → i.now.toNat + s3TimeoutMs.toNat < now.toNat

/-- Where the timestamp comes from, in any run. `latest` bounds every reading so far. -/
structure S3Stamped (latest : UInt64) (past : List S3Input) (s : S3System) : Prop where
  stored : s.ecu.lastTesterPresentMs ≤ latest
  refreshed : ∀ i ∈ past, i.Refreshes → i.now ≤ s.ecu.lastTesterPresentMs
  /-- The sample and the steps since: the thread has not moved, and the timestamp is older
  than the sample or comes from one of these steps. -/
  sampled : ∀ now, s.pc = .timestamp now → ∃ before gap, past = before ++ ⟨.s3, now⟩ :: gap ∧
    (∀ i ∈ gap, i.Refreshes) ∧
    (s.ecu.lastTesterPresentMs ≤ now ∨ ∃ i ∈ gap, s.ecu.lastTesterPresentMs = i.now)

section Stamped

variable {latest : UInt64} {past : List S3Input} {s : S3System}

theorem S3Stamped.start (boot : UInt64) : S3Stamped boot [] (.start boot) where
  stored := UInt64.le_refl boot
  refreshed := by simp
  sampled := by simp [S3System.start]

/-- A refresh stores its own reading. -/
theorem S3Stamped.refresh (stamped : S3Stamped latest past s) {i : S3Input}
    (order : latest ≤ i.now) (refreshes : i.Refreshes) {ecu : EcuState}
    (stores : ecu.lastTesterPresentMs = i.now) : S3Stamped i.now (past ++ [i]) ⟨ecu, s.pc⟩ where
  stored := by
    rw [stores]
    exact UInt64.le_refl i.now
  refreshed := by
    intro j member refreshed
    rw [stores]
    rcases List.mem_append.mp member with earlier | last
    · exact UInt64.le_trans (stamped.refreshed j earlier refreshed)
        (UInt64.le_trans stamped.stored order)
    · rw [List.mem_singleton.mp last]
      exact UInt64.le_refl i.now
  sampled := by
    intro now pc
    obtain ⟨before, gap, split, still, -⟩ := stamped.sampled now pc
    refine ⟨before, gap ++ [i], by simp [split], ?_, .inr ⟨i, by simp, stores⟩⟩
    intro j member
    rcases List.mem_append.mp member with inGap | last
    · exact still j inGap
    · rw [List.mem_singleton.mp last]
      exact refreshes

/-- A critical section of the S3 thread; the second one takes the sample. -/
theorem S3Stamped.s3 (stamped : S3Stamped latest past s) {t : UInt64} (order : latest ≤ t) :
    S3Stamped t (past ++ [⟨.s3, t⟩]) (s3Section s t) := by
  have bounded : s.ecu.lastTesterPresentMs ≤ t := UInt64.le_trans stamped.stored order
  have kept : ∀ j ∈ past ++ [⟨.s3, t⟩], j.Refreshes → j.now ≤ s.ecu.lastTesterPresentMs := by
    intro j member refreshes
    rcases List.mem_append.mp member with earlier | last
    · exact stamped.refreshed j earlier refreshes
    · rw [List.mem_singleton.mp last] at refreshes
      exact absurd rfl refreshes
  have idle : ∀ pc, (∀ now, pc ≠ .timestamp now) →
      S3Stamped t (past ++ [⟨.s3, t⟩]) ⟨s.ecu, pc⟩ := by
    intro pc elsewhere
    exact ⟨bounded, kept, fun now sampled => absurd sampled (elsewhere now)⟩
  unfold s3Section
  cases s.pc with
  | session =>
      apply idle
      intro now
      split_ifs <;> simp
  | clock =>
      refine ⟨bounded, kept, ?_⟩
      rintro now pc
      cases pc
      exact ⟨past, [], rfl, by simp, .inl bounded⟩
  | timestamp sample =>
      apply idle
      intro now
      split_ifs <;> simp
  | revert =>
      refine ⟨UInt64.le_refl t, ?_, by simp⟩
      intro j member refreshes
      exact UInt64.le_trans (kept j member refreshes) bounded
  | relock => exact ⟨bounded, kept, by simp⟩

theorem S3Stamped.step (stamped : S3Stamped latest past s) {i : S3Input} (order : latest ≤ i.now) :
    S3Stamped i.now (past ++ [i]) (s3Step s i).1 := by
  obtain ⟨action, t⟩ := i
  cases action with
  | s3 => exact stamped.s3 order
  | markTesterPresent => exact stamped.refresh order (by simp [S3Input.Refreshes]) rfl
  | setSession session => exact stamped.refresh order (by simp [S3Input.Refreshes]) rfl

theorem S3Stamped.run (stamped : S3Stamped latest past s) (inputs : List S3Input)
    (clock : S3Clock latest inputs) :
    ∃ t, S3Stamped t (past ++ inputs) (Foundation.run s3Step s inputs) := by
  induction inputs generalizing latest past s with
  | nil =>
      rw [List.append_nil]
      exact ⟨latest, stamped⟩
  | cons i rest ih =>
      have final := ih (stamped.step clock.1) clock.2
      rwa [List.append_assoc] at final

end Stamped

/-- **When the subtraction does not wrap.** In every run, whenever the S3 thread is about
to compare: the difference is the elapsed time since the last refresh if and only if no
refresh since the clock sample carries a later reading than the sample. -/
theorem s3_elapsed_exact_iff (boot : UInt64) (past : List S3Input) (clock : S3Clock boot past)
    (now : UInt64) (sampled : (s3Run boot past).pc = .timestamp now) :
    ∃ before gap, past = before ++ ⟨.s3, now⟩ :: gap ∧ (∀ i ∈ gap, i.Refreshes) ∧
      (ElapsedExact past now (s3Run boot past).ecu.lastTesterPresentMs ↔
        ∀ i ∈ gap, i.now ≤ now) := by
  obtain ⟨latest, stamped⟩ := (S3Stamped.start boot).run past clock
  rw [List.nil_append] at stamped
  change S3Stamped latest past (s3Run boot past) at stamped
  obtain ⟨before, gap, split, still, source⟩ := stamped.sampled now sampled
  have refreshed : ∀ i ∈ gap, i.now ≤ (s3Run boot past).ecu.lastTesterPresentMs := by
    intro i member
    apply stamped.refreshed i _ (still i member)
    rw [split]
    exact List.mem_append_right _ (List.mem_cons_of_mem _ member)
  refine ⟨before, gap, split, still, ?_, ?_⟩
  · intro exact i member
    exact UInt64.le_trans (refreshed i member) exact.ordered
  · intro early
    have ordered : (s3Run boot past).ecu.lastTesterPresentMs ≤ now := by
      obtain older | ⟨i, member, same⟩ := source
      · exact older
      · rw [same]
        exact early i member
    refine ⟨ordered, UInt64.toNat_sub_of_le _ _ ordered, ?_⟩
    intro expired i member refreshes
    have seen := UInt64.le_iff_toNat_le.mp (stamped.refreshed i member refreshes)
    have elapsed := elapsed_of_expired ordered expired
    omega

/-- A session at time zero whose timer has just sampled the clock at 1000. -/
def sampledSession : List S3Input :=
  [⟨.setSession udsSessionExtended, 0⟩, ⟨.s3, 1000⟩, ⟨.s3, 1000⟩]

theorem s3_elapsed_exact_iff_same_reading :
    ∃ before gap, sampledSession ++ [⟨.markTesterPresent, 1000⟩] =
        before ++ ⟨.s3, 1000⟩ :: gap ∧ (∀ i ∈ gap, i.Refreshes) ∧
      (ElapsedExact (sampledSession ++ [⟨.markTesterPresent, 1000⟩]) 1000
          (s3Run 0 (sampledSession ++ [⟨.markTesterPresent, 1000⟩])).ecu.lastTesterPresentMs ↔
        ∀ i ∈ gap, i.now ≤ 1000) :=
  s3_elapsed_exact_iff 0 (sampledSession ++ [⟨.markTesterPresent, 1000⟩]) (by decide) 1000
    (by decide +kernel)

/-- A TesterPresent one millisecond after the sample makes the difference wrap, and a
session refreshed a moment ago counts as expired. -/
theorem s3_elapsed_wraps :
    ¬ ∀ (boot : UInt64) (past : List S3Input), S3Clock boot past → ∀ now : UInt64,
      (s3Run boot past).pc = .timestamp now →
        ElapsedExact past now (s3Run boot past).ecu.lastTesterPresentMs := by
  intro claim
  have exact := claim 0 (sampledSession ++ [⟨.markTesterPresent, 1001⟩]) (by decide) 1000
    (by decide +kernel)
  have ordered := exact.ordered
  revert ordered
  decide +kernel

end VecuUds
