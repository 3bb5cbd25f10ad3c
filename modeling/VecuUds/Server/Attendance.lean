import VecuUds.Server.Authorisation

/-!
# When a session ends

Apart from an answered session request or reset, only the S3 timer ends a session. Whether it
does can be read off the answers alone: the timer ends the session at its first look that finds
no session change, no reset and no TesterPresent answered within the last 5000 ms. A tester
that keeps answering in time never loses the session, however often the timer looks, and a
tester that falls silent loses it at the first look that comes too late.

The stored timestamp is what connects the two: it is the reading of the latest such answer.
-/

namespace VecuUds

open Foundation

/-- A session change, a reset or a TesterPresent was answered. -/
def RefreshesSession (v : ServerVisit) : Prop :=
  byteAt (response v) 0 = 0x50 ∨ byteAt (response v) 0 = 0x51 ∨ byteAt (response v) 0 = 0x7E

/-- A session change or a reset was answered. -/
def SetsSession (v : ServerVisit) : Prop :=
  byteAt (response v) 0 = 0x50 ∨ byteAt (response v) 0 = 0x51

instance (v : ServerVisit) : Decidable (RefreshesSession v) :=
  inferInstanceAs (Decidable (_ ∨ _ ∨ _))

instance (v : ServerVisit) : Decidable (SetsSession v) := inferInstanceAs (Decidable (_ ∨ _))

/-- No such answer was given in the 5000 ms before this reading. -/
def Unattended (past : List ServerVisit) (t : UInt64) : Prop :=
  ∀ v ∈ past, RefreshesSession v → v.input.amb.now.toNat + 5000 < t.toNat

instance (past : List ServerVisit) (t : UInt64) : Decidable (Unattended past t) :=
  inferInstanceAs (Decidable (∀ v ∈ past, _))

/-- What the answers of a run say about the stored timestamp. -/
structure Attended (latest : UInt64) (past : List ServerVisit) (s : EcuState) : Prop where
  registered : s.dids = ecuDids
  stored : s.lastTesterPresentMs ≤ latest
  since : ∀ v ∈ past, RefreshesSession v → v.input.amb.now ≤ s.lastTesterPresentMs
  known : s.session ≠ udsSessionDefault →
    ∃ v ∈ past, RefreshesSession v ∧ v.input.amb.now = s.lastTesterPresentMs

section Steps

variable {latest : UInt64} {past : List ServerVisit} {s : EcuState} {v : ServerVisit}

theorem Attended.opened (boot : UInt64) : Attended boot [] (vecuInit boot) where
  registered := rfl
  stored := UInt64.le_refl _
  since := fun _ member => absurd member List.not_mem_nil
  known := fun active => absurd rfl active

/-- An answer that refreshes the session takes its own reading down. -/
theorem Attended.refresh (attended : Attended latest past v.before)
    (first : latest ≤ v.input.amb.now) (second : v.input.amb.now ≤ v.input.amb.later)
    (registered : v.after.dids = v.before.dids) (refreshes : RefreshesSession v)
    (stamped : v.after.lastTesterPresentMs = v.input.amb.now) :
    Attended v.input.amb.later (past ++ [v]) v.after where
  registered := registered.trans attended.registered
  stored := by
    rw [stamped]
    exact second
  since := by
    intro w member refreshed
    rw [stamped]
    rcases List.mem_append.mp member with before | last
    · exact UInt64.le_trans (attended.since w before refreshed)
        (UInt64.le_trans attended.stored first)
    · rw [List.mem_singleton.mp last]
      exact UInt64.le_refl _
  known := fun _ =>
    ⟨v, List.mem_append_right _ (List.mem_singleton_self v), refreshes, stamped.symm⟩

/-- Any other step leaves the timestamp alone or expires the session. -/
theorem Attended.other (attended : Attended latest past v.before)
    (registered : v.after.dids = v.before.dids) (silent : ¬ RefreshesSession v)
    (stamp : v.before.lastTesterPresentMs ≤ v.after.lastTesterPresentMs)
    (bound : v.after.lastTesterPresentMs ≤ v.input.amb.later)
    (kept : v.after.session ≠ udsSessionDefault → v.before.session ≠ udsSessionDefault ∧
      v.after.lastTesterPresentMs = v.before.lastTesterPresentMs) :
    Attended v.input.amb.later (past ++ [v]) v.after where
  registered := registered.trans attended.registered
  stored := bound
  since := by
    intro w member refreshed
    rcases List.mem_append.mp member with before | last
    · exact UInt64.le_trans (attended.since w before refreshed) stamp
    · rw [List.mem_singleton.mp last] at refreshed
      exact absurd refreshed silent
  known := by
    intro active
    obtain ⟨before, same⟩ := kept active
    obtain ⟨w, member, refreshes, reading⟩ := attended.known before
    exact ⟨w, List.mem_append_left _ member, refreshes, reading.trans same.symm⟩

/-- What one step does to the session and its timestamp. -/
inductive SessionStep (v : ServerVisit) : Prop where
  | refresh (served : v.input.op ≠ .s3Iteration) (refreshes : RefreshesSession v)
      (stamped : v.after.lastTesterPresentMs = v.input.amb.now)
      (keeps : ¬ SetsSession v → v.after.session = v.before.session)
  | keep (silent : ¬ RefreshesSession v) (session : v.after.session = v.before.session)
      (stamp : v.after.lastTesterPresentMs = v.before.lastTesterPresentMs)
      (young : v.input.op = .s3Iteration → v.before.session ≠ udsSessionDefault →
        ¬ v.input.amb.now - v.before.lastTesterPresentMs > s3TimeoutMs)
  | expire (silent : ¬ RefreshesSession v) (looks : v.input.op = .s3Iteration)
      (active : v.before.session ≠ udsSessionDefault)
      (old : v.input.amb.now - v.before.lastTesterPresentMs > s3TimeoutMs)
      (session : v.after.session = udsSessionDefault)
      (stamp : v.after.lastTesterPresentMs = v.input.amb.later)

theorem sessionStep (registered : s.dids = ecuDids) (i : ServerInput) :
    SessionStep (visit serverStep s i) := by
  cases op : i.op with
  | request req =>
      have effect := serverStep_effect registered i
      have foreign : i.op ≠ .s3Iteration := by simp [op]
      suffices step : SessionStep ⟨s, i, (serverStep s i).2, (serverStep s i).1⟩ from step
      generalize (serverStep s i).1 = s', (serverStep s i).2 = reply at effect ⊢
      cases effect with
      | request req' op' effect =>
          cases effect with
          | sessionControl =>
              exact .refresh foreign (.inl rfl) rfl fun unset => absurd (.inl rfl) unset
          | ecuReset =>
              exact .refresh foreign (.inr (.inl rfl)) rfl fun unset => absurd (.inr rfl) unset
          | testerPresent => exact .refresh foreign (.inr (.inr rfl)) rfl fun _ => rfl
          | _ =>
              refine .keep ?_ rfl rfl fun looks => absurd looks foreign
              simp [RefreshesSession, response, Reply.negative, Reply.suppressible,
                Reply.positive, buildNrc, udsNegativeResponse]
      | empty op' =>
          refine .keep ?_ rfl rfl fun looks => absurd looks foreign
          simp [RefreshesSession, response, Reply.dropped, byteAt]
      | s3Idle op' => exact absurd op' foreign
      | s3Timeout op' => exact absurd op' foreign
      | engineTick op' => exact absurd (op.symm.trans op') (by simp)
  | s3Iteration =>
      have silent : ¬ RefreshesSession (visit serverStep s i) := by
        simp [RefreshesSession, response, visit, serverStep, op, byteAt]
      have after : (serverStep s i).1 = s3Iteration i.amb s := by simp only [serverStep, op]
      rw [s3Iteration_eq] at after
      split_ifs at after with expires
      · exact .expire silent op expires.1 expires.2 (congrArg VecuState.session after)
          (congrArg VecuState.lastTesterPresentMs after)
      · exact .keep silent (congrArg VecuState.session after)
          (congrArg VecuState.lastTesterPresentMs after) fun _ active old => expires ⟨active, old⟩
  | engineTick =>
      have silent : ¬ RefreshesSession (visit serverStep s i) := by
        simp [RefreshesSession, response, visit, serverStep, op, byteAt]
      have session : (serverStep s i).1.session = s.session := by simp only [serverStep, op]
      have stamp : (serverStep s i).1.lastTesterPresentMs = s.lastTesterPresentMs := by
        simp only [serverStep, op]
      refine .keep silent session stamp ?_
      intro looks
      exact absurd (op.symm.trans looks) (by simp)

theorem Attended.step (attended : Attended latest past s) {i : ServerInput}
    (first : latest ≤ i.amb.now) (second : i.amb.now ≤ i.amb.later) :
    Attended i.amb.later (past ++ [visit serverStep s i]) (serverStep s i).1 := by
  have registered : (serverStep s i).1.dids = s.dids :=
    (serverStep_effect attended.registered i).dids
  have stored : s.lastTesterPresentMs ≤ i.amb.later :=
    UInt64.le_trans attended.stored (UInt64.le_trans first second)
  cases sessionStep attended.registered i with
  | refresh served refreshes stamped =>
      exact Attended.refresh (v := visit serverStep s i) attended first second registered
        refreshes stamped
  | keep silent session stamp =>
      refine Attended.other (v := visit serverStep s i) attended registered silent ?_ ?_ ?_
      · rw [stamp]
        exact UInt64.le_refl _
      · rw [stamp]
        exact stored
      · intro active
        rw [session] at active
        exact ⟨active, stamp⟩
  | expire silent looks active old session stamp =>
      refine Attended.other (v := visit serverStep s i) attended registered silent ?_ ?_ ?_
      · rw [stamp]
        exact stored
      · rw [stamp]
        exact UInt64.le_refl _
      · intro active
        exact absurd session active

/-- At a reading that is not before the stored one, the timer finds an active session too old
exactly if nobody attended to it. -/
theorem Attended.old_iff (attended : Attended latest past s)
    (active : s.session ≠ udsSessionDefault) {t : UInt64} (order : latest ≤ t) :
    t - s.lastTesterPresentMs > s3TimeoutMs ↔ Unattended past t := by
  have ordered : s.lastTesterPresentMs ≤ t := UInt64.le_trans attended.stored order
  have gap : (t - s.lastTesterPresentMs).toNat = t.toNat - s.lastTesterPresentMs.toNat :=
    UInt64.toNat_sub_of_le t _ ordered
  have below := UInt64.le_iff_toNat_le.mp ordered
  have elapsed : t - s.lastTesterPresentMs > s3TimeoutMs ↔
      s.lastTesterPresentMs.toNat + 5000 < t.toNat := by
    change s3TimeoutMs < t - s.lastTesterPresentMs ↔ _
    rw [UInt64.lt_iff_toNat_lt, gap]
    change 5000 < _ ↔ _
    omega
  rw [elapsed]
  constructor
  · intro late v member refreshes
    have seen := UInt64.le_iff_toNat_le.mp (attended.since v member refreshes)
    omega
  · intro unattended
    obtain ⟨v, member, refreshes, reading⟩ := attended.known active
    rw [← reading]
    exact unattended v member refreshes

end Steps

theorem lastReading_snoc (t : UInt64) (past : List ServerInput) (i : ServerInput) :
    lastReading t (past ++ [i]) = i.amb.later := by
  induction past generalizing t with
  | nil => rfl
  | cons j rest ih => exact ih j.amb.later

theorem serverRun_attended (boot : UInt64) (inputs : List ServerInput)
    (clock : ClockFrom boot inputs) :
    Attended (lastReading boot inputs) (serverTrace boot inputs) (serverRun boot inputs) := by
  induction inputs using List.reverseRecOn with
  | nil => exact .opened boot
  | append_singleton past i ih =>
      obtain ⟨before, order, readings, -⟩ := clockFrom_append.mp clock
      rw [lastReading_snoc, serverTrace, serverRun, trace_snoc, run_snoc]
      exact (ih before).step order readings

section Session

variable {boot : UInt64} {past future : List ServerInput}

/-- The timer's look, at a point of the continuation where nobody has attended to the session. -/
def LooksTooLate (boot : UInt64) (past future : List ServerInput) : Prop :=
  ∃ before i after, future = before ++ i :: after ∧ i.op = .s3Iteration ∧
    Unattended (serverTrace boot (past ++ before)) i.amb.now

theorem LooksTooLate.snoc_iff {i : ServerInput} :
    LooksTooLate boot past (future ++ [i]) ↔
      LooksTooLate boot past future ∨
        i.op = .s3Iteration ∧ Unattended (serverTrace boot (past ++ future)) i.amb.now := by
  constructor
  · rintro ⟨before, j, after, split, looks, unattended⟩
    rcases List.eq_nil_or_concat after with rfl | ⟨after, k, rfl⟩
    · obtain ⟨rfl, same⟩ := List.append_inj' split rfl
      obtain rfl := List.singleton_inj.mp same
      exact .inr ⟨looks, unattended⟩
    · rw [List.concat_eq_append, ← List.cons_append, ← List.append_assoc] at split
      obtain ⟨rfl, -⟩ := List.append_inj' split rfl
      exact .inl ⟨before, j, after, rfl, looks, unattended⟩
  · rintro (⟨before, j, after, rfl, looks, unattended⟩ | ⟨looks, unattended⟩)
    · exact ⟨before, j, after ++ [i], by simp, looks, unattended⟩
    · exact ⟨future, i, [], rfl, looks, unattended⟩

/-- What the continuation has done to the session so far. -/
structure SessionFate (boot : UInt64) (past future : List ServerInput) (s : EcuState) : Prop where
  ended : s.session = udsSessionDefault ↔ LooksTooLate boot past future
  locked : DefaultLocked s
  same : s.session ≠ udsSessionDefault → s.session = (serverRun boot past).session

/-- Leaving an unlocked session through a request is answered as a session change. -/
theorem LeavesUnlocked.sets {s : EcuState} {i : ServerInput}
    (leaves : LeavesUnlocked (visit serverStep s i)) : SetsSession (visit serverStep s i) := by
  obtain ⟨request, -⟩ := leaves
  obtain ⟨raw, op, known⟩ : ∃ raw, i.op = .request [0x10, raw] ∧
      subFunction raw = udsSessionDefault := by
    rcases request with op | op
    · exact ⟨0x01, op, rfl⟩
    · exact ⟨0x81, op, rfl⟩
  have row : udsProcessRequest i.amb s [0x10, raw] udsMaxMsgLen =
      hSessionControl i.amb s [0x10, raw] udsMaxMsgLen :=
    udsProcessRequest_row (u := .diagnosticSessionControl) i.amb s three_le_udsMaxMsgLen rfl rfl
  have roomy : ¬ udsMaxMsgLen < 6 := by decide
  have answered : (hSessionControl i.amb s [0x10, raw] udsMaxMsgLen).2.resp =
      [0x50, subFunction raw, 0x00, 0x32, 0x01, 0xF4] := by
    have second : byteAt [0x10, raw] 1 = raw := rfl
    have pair : ¬ [0x10, raw].length ≠ 2 := not_not.mpr rfl
    simp only [hSessionControl, second, if_neg pair, known, true_or, if_true, if_neg roomy]
    rfl
  left
  simp only [response, visit, serverStep, op, row, Option.map_some, answered, Option.getD_some]
  rfl

theorem SessionFate.step {latest : UInt64} {s : EcuState}
    (fate : SessionFate boot past future s) {i : ServerInput}
    (attended : Attended latest (serverTrace boot (past ++ future)) s)
    (order : latest ≤ i.amb.now) (unset : ¬ SetsSession (visit serverStep s i)) :
    SessionFate boot past (future ++ [i]) (serverStep s i).1 := by
  have locked : DefaultLocked (serverStep s i).1 :=
    (serverStep_effect attended.registered i).defaultLocked fate.locked fun leaves =>
      unset (LeavesUnlocked.sets leaves)
  cases sessionStep attended.registered i with
  | refresh served refreshes stamped keeps =>
      have kept : (serverStep s i).1.session = s.session := keeps unset
      refine ⟨?_, locked, ?_⟩
      · rw [kept, fate.ended, LooksTooLate.snoc_iff]
        exact ⟨.inl, fun late => late.resolve_right fun looks => served looks.1⟩
      · rw [kept]
        exact fate.same
  | keep silent session stamp young =>
      have kept : (serverStep s i).1.session = s.session := session
      refine ⟨?_, locked, ?_⟩
      · rw [kept, LooksTooLate.snoc_iff, ← fate.ended]
        refine ⟨.inl, fun late => late.elim id fun looks => ?_⟩
        by_contra active
        exact young looks.1 active ((attended.old_iff active order).mpr looks.2)
      · rw [kept]
        exact fate.same
  | expire silent looks active old session =>
      refine ⟨iff_of_true session ?_, locked, fun still => absurd session still⟩
      exact LooksTooLate.snoc_iff.mpr (.inr ⟨looks, (attended.old_iff active order).mp old⟩)

end Session

/-- **A session ends exactly when nobody attends to it.** Take any point of any run at which a
session is open, and any continuation in which no session request and no reset is answered; an
iteration of the S3 thread is one complete step of these runs. The session is over at the end
if and only if an iteration has looked at a reading more than 5000 ms after the last session
change, reset or TesterPresent that was answered. If it is over, the ECU is locked; if not, it
is the same session. -/
theorem session_ends_iff_unattended (boot : UInt64) (past future : List ServerInput)
    (clock : ClockFrom boot (past ++ future))
    (active : (serverRun boot past).session ≠ udsSessionDefault)
    (unset : ∀ v ∈ trace serverStep (serverRun boot past) future, ¬ SetsSession v) :
    let s := serverRun boot (past ++ future)
    (s.session = udsSessionDefault ↔ LooksTooLate boot past future) ∧
      (s.session = udsSessionDefault → s.security.unlockedLevel = 0) ∧
      (s.session ≠ udsSessionDefault → s.session = (serverRun boot past).session) := by
  suffices fate : SessionFate boot past future (serverRun boot (past ++ future)) from
    ⟨fate.ended, fate.locked, fate.same⟩
  induction future using List.reverseRecOn with
  | nil =>
      rw [List.append_nil]
      refine ⟨iff_of_false active ?_, fun ended => absurd ended active, fun _ => rfl⟩
      rintro ⟨before, i, after, split, -⟩
      simp at split
  | append_singleton future i ih =>
      rw [← List.append_assoc] at clock ⊢
      obtain ⟨before, order, -⟩ := clockFrom_append.mp clock
      have same : run serverStep (serverRun boot past) future = serverRun boot (past ++ future) :=
        (run_append serverStep (vecuInit boot) past future).symm
      rw [trace_snoc, same] at unset
      have fate := ih before fun v member => unset v (List.mem_append_left _ member)
      rw [serverRun, run_snoc]
      exact fate.step (serverRun_attended boot (past ++ future) before) order
        (unset _ (List.mem_append_right _ (List.mem_singleton_self _)))

/-- A TesterPresent in time, and the two looks of the timer that come after it. -/
def attendedSession : List ServerInput :=
  [.requestAt 4000 [0x3E, 0x80], ⟨.s3Iteration, .still 9000⟩, ⟨.s3Iteration, .still 9001⟩]

theorem session_ends_iff_unattended_late :
    (serverRun 0 ([.requestAt 0 [0x10, 0x03]] ++ attendedSession)).session = udsSessionDefault ↔
      LooksTooLate 0 [.requestAt 0 [0x10, 0x03]] attendedSession :=
  (session_ends_iff_unattended 0 [.requestAt 0 [0x10, 0x03]] attendedSession (by decide)
    (by decide +kernel) (by decide +kernel)).1

end VecuUds
