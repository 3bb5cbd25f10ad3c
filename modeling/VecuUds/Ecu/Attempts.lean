import VecuUds.Foundation.Trace
import VecuUds.Ecu.Representation

/-!
# Counting wrong keys

The security module by itself: a run is a list of `security_request_seed` and
`security_send_key` calls for level one and of S3 relocks, from `security_init`. The
failure counter of every state is the number of keys that were judged and rejected since
the last event that forgets them. The answer `exceededNumberOfAttempts` and everything
after it follow from that one invariant.
-/

namespace VecuUds

open Foundation

inductive SecurityOp where
  | requestSeed (entropy : Option UInt32)
  | sendKey (key : UInt32)
  | relock
  deriving DecidableEq, Repr

/-- A call with its clock readings. Only `security_send_key` may take a second one. -/
structure SecurityInput where
  op : SecurityOp
  now : UInt64
  later : UInt64
  deriving DecidableEq, Repr

/-- What a call returns. -/
inductive SecurityAnswer where
  | seed (result : SeedResult)
  | key (result : Except UdsNrc Unit)
  | silent
  deriving DecidableEq

/-- One call. -/
def securityCall (s : SecurityState) (i : SecurityInput) : SecurityState × SecurityAnswer :=
  match i.op with
  | .requestSeed entropy =>
      let r := securityRequestSeed i.now entropy s 0x01
      (r.1, .seed r.2)
  | .sendKey key =>
      let r := securitySendKey i.now i.later s 0x01 key
      (r.1, .key r.2)
  | .relock => (s.relock, .silent)

abbrev SecurityVisit := Visit SecurityState SecurityInput SecurityAnswer

def securityRun (inputs : List SecurityInput) : SecurityState :=
  run securityCall securityInit inputs

def securityTrace (inputs : List SecurityInput) : List SecurityVisit :=
  trace securityCall securityInit inputs

/-- The clock readings do not decrease, starting from `t`. -/
def SecurityClock : UInt64 → List SecurityInput → Prop
  | _, [] => True
  | t, i :: rest => t ≤ i.now ∧ i.now ≤ i.later ∧ SecurityClock i.later rest

instance decidableSecurityClock : (t : UInt64) → (inputs : List SecurityInput) →
    Decidable (SecurityClock t inputs)
  | _, [] => .isTrue trivial
  | _, i :: rest =>
      have := decidableSecurityClock i.later rest
      inferInstanceAs (Decidable (_ ∧ _ ∧ _))

/-! ## Events -/

/-- A key that reached the comparison with the issued seed and is wrong. -/
def RejectsWrongKey (v : SecurityVisit) : Prop :=
  match v.input.op with
  | .sendKey key =>
      v.before.seedIssued = true ∧
        ¬ (v.before.lockUntilMs ≠ 0 ∧ v.input.now < v.before.lockUntilMs) ∧
        key ≠ v.before.pendingSeed ^^^ securityKeyConstant
  | _ => False

/-- An accepted key. -/
def AcceptsRightKey (v : SecurityVisit) : Prop :=
  match v.output with
  | .key (.ok _) => True
  | _ => False

/-- A seed request that finds the lock-out expired. -/
def NoticesExpiry (v : SecurityVisit) : Prop :=
  match v.input.op with
  | .requestSeed _ =>
      v.before.unlockedLevel = 0 ∧ v.before.lockUntilMs ≠ 0 ∧ v.before.lockUntilMs ≤ v.input.now
  | _ => False

/-- A seed request answered with a seed. -/
def HandsOutSeed (v : SecurityVisit) : Prop :=
  match v.output with
  | .seed (.issued _) => True
  | _ => False

instance : (v : SecurityVisit) → Decidable (RejectsWrongKey v)
  | ⟨_, ⟨.requestSeed _, _, _⟩, _, _⟩ => .isFalse id
  | ⟨_, ⟨.sendKey _, _, _⟩, _, _⟩ => inferInstanceAs (Decidable (_ ∧ _ ∧ _))
  | ⟨_, ⟨.relock, _, _⟩, _, _⟩ => .isFalse id

instance : (v : SecurityVisit) → Decidable (AcceptsRightKey v)
  | ⟨_, _, .seed _, _⟩ => .isFalse id
  | ⟨_, _, .key (.ok _), _⟩ => .isTrue trivial
  | ⟨_, _, .key (.error _), _⟩ => .isFalse id
  | ⟨_, _, .silent, _⟩ => .isFalse id

instance : (v : SecurityVisit) → Decidable (NoticesExpiry v)
  | ⟨_, ⟨.requestSeed _, _, _⟩, _, _⟩ => inferInstanceAs (Decidable (_ ∧ _ ∧ _))
  | ⟨_, ⟨.sendKey _, _, _⟩, _, _⟩ => .isFalse id
  | ⟨_, ⟨.relock, _, _⟩, _, _⟩ => .isFalse id

/-- The two events after which the count of wrong keys starts again. -/
def ForgetsFailures (v : SecurityVisit) : Prop := AcceptsRightKey v ∨ NoticesExpiry v

instance (v : SecurityVisit) : Decidable (ForgetsFailures v) := inferInstanceAs (Decidable (_ ∨ _))

/-- The keys judged and rejected since the last event that forgets failures. -/
def rejectedSince (visits : List SecurityVisit) : Nat :=
  (visits.reverse.takeWhile fun v => ¬ ForgetsFailures v).countP fun v => RejectsWrongKey v

theorem rejectedSince_snoc (past : List SecurityVisit) (v : SecurityVisit) :
    rejectedSince (past ++ [v]) =
      if ForgetsFailures v then 0
      else rejectedSince past + if RejectsWrongKey v then 1 else 0 := by
  simp only [rejectedSince, List.reverse_append, List.reverse_cons, List.reverse_nil,
    List.nil_append, List.singleton_append, List.takeWhile_cons]
  by_cases forgets : ForgetsFailures v
  · simp [forgets]
  · simp [forgets, List.countP_cons]

theorem rejectedSince_forgotten {past : List SecurityVisit} {v : SecurityVisit}
    (forgets : ForgetsFailures v) : rejectedSince (past ++ [v]) = 0 := by
  rw [rejectedSince_snoc, if_pos forgets]

theorem rejectedSince_kept {past : List SecurityVisit} {v : SecurityVisit}
    (unaccepted : ¬ AcceptsRightKey v) (unnoticed : ¬ NoticesExpiry v)
    (unjudged : ¬ RejectsWrongKey v) : rejectedSince (past ++ [v]) = rejectedSince past := by
  have keeps : ¬ ForgetsFailures v := not_or.mpr ⟨unaccepted, unnoticed⟩
  rw [rejectedSince_snoc, if_neg keeps, if_neg unjudged, Nat.add_zero]

theorem rejectedSince_rejected {past : List SecurityVisit} {v : SecurityVisit}
    (unaccepted : ¬ AcceptsRightKey v) (unnoticed : ¬ NoticesExpiry v)
    (rejects : RejectsWrongKey v) : rejectedSince (past ++ [v]) = rejectedSince past + 1 := by
  have keeps : ¬ ForgetsFailures v := not_or.mpr ⟨unaccepted, unnoticed⟩
  rw [rejectedSince_snoc, if_neg keeps, if_pos rejects]

/-! ## The counter -/

/-- The state is valid and its counter is the number of keys rejected so far. -/
structure Counted (past : List SecurityVisit) (s : SecurityState) : Prop where
  valid : s.Valid
  count : s.failCount.toNat = rejectedSince past

theorem toNat_failCount_succ {s : SecurityState} (few : s.failCount < 3) :
    (s.failCount + 1).toNat = s.failCount.toNat + 1 := by
  have below : s.failCount.toNat < 3 := UInt8.lt_iff_toNat_lt.mp few
  rw [UInt8.toNat_add]
  exact Nat.mod_eq_of_lt (by simp; omega)

section Counted

variable {past : List SecurityVisit} {s t : SecurityState} {now later : UInt64}

theorem Counted.seed (counted : Counted past s) {entropy : Option UInt32} {r : SeedResult}
    (effect : SeedEffect now entropy s t r) :
    Counted (past ++ [⟨s, ⟨.requestSeed entropy, now, later⟩, .seed r, t⟩]) t := by
  refine ⟨counted.valid.seedEffect effect, ?_⟩
  cases effect with
  | unlocked level =>
      rw [rejectedSince_kept id ?_ id]
      · exact counted.count
      · rintro ⟨zero, -⟩
        change s.unlockedLevel = 0 at zero
        rw [zero] at level
        exact absurd level (by decide)
  | lockedOut level armed early =>
      rw [rejectedSince_kept id ?_ id]
      · exact counted.count
      · rintro ⟨-, -, due⟩
        exact absurd early (UInt64.not_lt.mpr due)
  | expired level armed due =>
      symm
      apply rejectedSince_forgotten
      exact .inr ⟨level, armed, due⟩
  | fresh level unarmed =>
      rw [rejectedSince_kept id ?_ id]
      · exact counted.count
      · rintro ⟨-, armed, -⟩
        exact armed unarmed

/-- A key is refused for good exactly when it is the third one rejected. -/
theorem Counted.key (counted : Counted past s) {key : UInt32} {r : Except UdsNrc Unit}
    (clear : ClearOfWrap later) (effect : KeyEffect now later s key t r) :
    let v : SecurityVisit := ⟨s, ⟨.sendKey key, now, later⟩, .key r, t⟩
    Counted (past ++ [v]) t ∧
      (r = .error .exceededNumberOfAttempts ↔ RejectsWrongKey v ∧ rejectedSince past = 2) := by
  intro v
  have next := counted.valid.keyEffect clear effect
  have unnoticed : ¬ NoticesExpiry v := id
  cases effect with
  | outOfSequence unissued =>
      have unjudged : ¬ RejectsWrongKey v := by simp [v, RejectsWrongKey, unissued]
      have unaccepted : ¬ AcceptsRightKey v := id
      refine ⟨⟨next, ?_⟩, by simp [unjudged]⟩
      rw [rejectedSince_kept unaccepted unnoticed unjudged]
      exact counted.count
  | lockedOut issued armed early =>
      exact absurd (counted.valid.of_issued issued).2.1 armed
  | accepted issued right =>
      have accepted : AcceptsRightKey v := trivial
      refine ⟨⟨next, ?_⟩, by simp [v, RejectsWrongKey, right]⟩
      rw [rejectedSince_forgotten (.inl accepted)]
      rfl
  | invalid issued wrong few =>
      obtain ⟨-, unarmed, fails⟩ := counted.valid.of_issued issued
      have rejects : RejectsWrongKey v := ⟨issued, fun locked => locked.1 unarmed, wrong⟩
      have unaccepted : ¬ AcceptsRightKey v := id
      have count := toNat_failCount_succ fails
      have below : (s.failCount + 1).toNat < 3 := UInt8.lt_iff_toNat_lt.mp few
      have seen := counted.count
      refine ⟨⟨next, ?_⟩, ?_⟩
      · rw [rejectedSince_rejected unaccepted unnoticed rejects]
        exact count.trans (congrArg (· + 1) counted.count)
      · simp only [Except.error.injEq, reduceCtorEq, rejects, true_and, false_iff]
        omega
  | exceeded issued wrong many =>
      obtain ⟨-, unarmed, fails⟩ := counted.valid.of_issued issued
      have rejects : RejectsWrongKey v := ⟨issued, fun locked => locked.1 unarmed, wrong⟩
      have unaccepted : ¬ AcceptsRightKey v := id
      have count := toNat_failCount_succ fails
      have below : s.failCount.toNat < 3 := UInt8.lt_iff_toNat_lt.mp fails
      have reached : 3 ≤ (s.failCount + 1).toNat := UInt8.le_iff_toNat_le.mp many
      have seen := counted.count
      refine ⟨⟨next, ?_⟩, ?_⟩
      · rw [rejectedSince_rejected unaccepted unnoticed rejects]
        exact count.trans (congrArg (· + 1) counted.count)
      · simp only [rejects, true_and, true_iff]
        omega

end Counted

theorem Counted.call {past : List SecurityVisit} {s : SecurityState} (counted : Counted past s)
    {i : SecurityInput} (clear : ClearOfWrap i.later) :
    Counted (past ++ [visit securityCall s i]) (securityCall s i).1 := by
  obtain ⟨op, now, later⟩ := i
  cases op with
  | requestSeed entropy => exact counted.seed (securityRequestSeed_effect now entropy s)
  | sendKey key => exact (counted.key clear (securitySendKey_effect now later s key)).1
  | relock =>
      refine ⟨counted.valid.relock, ?_⟩
      rw [rejectedSince_kept id id id]
      exact counted.count

/-- A call answers `exceededNumberOfAttempts` exactly if it rejects the third key. -/
theorem Counted.exceeded_iff {past : List SecurityVisit} {s : SecurityState}
    (counted : Counted past s) {i : SecurityInput} (clear : ClearOfWrap i.later) :
    (visit securityCall s i).output = .key (.error .exceededNumberOfAttempts) ↔
      RejectsWrongKey (visit securityCall s i) ∧ rejectedSince past = 2 := by
  obtain ⟨op, now, later⟩ := i
  cases op with
  | requestSeed entropy =>
      constructor
      · intro answer
        cases answer
      · rintro ⟨rejects, -⟩
        exact rejects.elim
  | sendKey key =>
      have third := (counted.key clear (securitySendKey_effect now later s key)).2
      constructor
      · intro answer
        exact third.mp (SecurityAnswer.key.inj answer)
      · intro rejected
        exact congrArg SecurityAnswer.key (third.mpr rejected)
  | relock =>
      constructor
      · intro answer
        cases answer
      · rintro ⟨rejects, -⟩
        exact rejects.elim

/-- At every point of a run the counter holds the number of keys rejected since failures
were last forgotten. -/
theorem securityRun_counted (past : List SecurityInput)
    (clear : ∀ i ∈ past, ClearOfWrap i.later) :
    Counted (securityTrace past) (securityRun past) := by
  induction past using List.reverseRecOn with
  | nil => exact ⟨.init, rfl⟩
  | append_singleton past i ih =>
      have counted := ih fun j member => clear j (by simp [member])
      have next := counted.call (clear i (by simp))
      rw [securityTrace, securityRun, trace_snoc, run_snoc]
      exact next

/-! ## The lock-out -/

/-- A lock-out with this deadline is on. -/
structure LockedOut (deadline : UInt64) (s : SecurityState) : Prop where
  level : s.unlockedLevel = 0
  spent : s.seedIssued = false
  armed : s.lockUntilMs = deadline
  nonzero : deadline ≠ 0

/-- What a locked-out module answers. -/
def lockedAnswer : SecurityOp → SecurityAnswer
  | .requestSeed _ => .seed (.refused .requiredTimeDelayNotExpired)
  | .sendKey _ => .key (.error .requestSequenceError)
  | .relock => .silent

/-- A call that finds the lock-out still on. -/
def SecurityInput.Waits (deadline : UInt64) (i : SecurityInput) : Prop :=
  ∀ entropy, i.op = .requestSeed entropy → i.now < deadline

section Lockout

variable {deadline : UInt64} {s : SecurityState} {i : SecurityInput}

/-- The third wrong key locks out, from the second clock reading of its call. -/
theorem lockedOut_of_exceeded (valid : s.Valid) (clear : ClearOfWrap i.later)
    (exceeded : (securityCall s i).2 = .key (.error .exceededNumberOfAttempts)) :
    LockedOut (i.later + securityLockDurationMs) (securityCall s i).1 := by
  obtain ⟨op, now, later⟩ := i
  cases op with
  | requestSeed entropy => cases exceeded
  | sendKey key =>
      have effect := securitySendKey_effect now later s key
      rw [SecurityAnswer.key.inj exceeded] at effect
      change LockedOut (later + securityLockDurationMs) (securitySendKey now later s 0x01 key).1
      generalize (securitySendKey now later s 0x01 key).1 = t at effect ⊢
      cases effect with
      | exceeded issued => exact ⟨(valid.of_issued issued).1, rfl, rfl, deadline_ne_zero clear⟩
  | relock => cases exceeded

/-- Before the deadline every call is refused and leaves the state as it is. -/
theorem LockedOut.call (locked : LockedOut deadline s) (waits : i.Waits deadline) :
    securityCall s i = (s, lockedAnswer i.op) := by
  obtain ⟨level, seed, issued, fails, lockUntil⟩ := s
  obtain ⟨rfl, rfl, rfl, nonzero⟩ := locked
  obtain ⟨op, now, later⟩ := i
  cases op with
  | requestSeed entropy =>
      have early : now < lockUntil := waits entropy rfl
      have low : ¬ (0 : UInt8) ≥ 0x01 := by decide
      simp [securityCall, securityRequestSeed, levelSupported, nonzero, early, low, lockedAnswer]
  | sendKey key => simp [securityCall, securitySendKey, levelSupported, lockedAnswer]
  | relock => rfl

/-- The first seed request at the deadline or later is served and forgets the failures. -/
theorem LockedOut.expire (locked : LockedOut deadline s) {entropy : Option UInt32}
    (asked : i.op = .requestSeed entropy) (due : deadline ≤ i.now) :
    (securityCall s i).2 = .seed (.issued (drawSeed entropy)) ∧
      NoticesExpiry (visit securityCall s i) := by
  obtain ⟨op, now, later⟩ := i
  cases asked
  have noticed : NoticesExpiry (visit securityCall s ⟨.requestSeed entropy, now, later⟩) := by
    refine ⟨locked.level, ?_, ?_⟩
    · change s.lockUntilMs ≠ 0
      rw [locked.armed]
      exact locked.nonzero
    · change s.lockUntilMs ≤ now
      rw [locked.armed]
      exact due
  refine ⟨?_, noticed⟩
  have effect := securityRequestSeed_effect now entropy s
  change SecurityAnswer.seed (securityRequestSeed now entropy s 0x01).2 = _
  generalize (securityRequestSeed now entropy s 0x01).1 = t at effect
  generalize (securityRequestSeed now entropy s 0x01).2 = r at effect ⊢
  cases effect with
  | unlocked level => exact absurd (locked.level ▸ level) (by decide)
  | lockedOut level armed early => exact absurd early (UInt64.not_lt.mpr noticed.2.2)
  | expired => rfl
  | fresh level unarmed => exact absurd unarmed noticed.2.1

theorem LockedOut.run (locked : LockedOut deadline s) {wait : List SecurityInput}
    (waits : ∀ i ∈ wait, i.Waits deadline) : Foundation.run securityCall s wait = s := by
  induction wait with
  | nil => rfl
  | cons i rest ih =>
      rw [run_cons, locked.call (waits i List.mem_cons_self)]
      exact ih fun j member => waits j (List.mem_cons_of_mem _ member)

/-- As long as no seed is handed out, no call has found the lock-out expired. -/
theorem LockedOut.waits_of_no_seed (locked : LockedOut deadline s) {wait : List SecurityInput}
    (seedless : ∀ v ∈ trace securityCall s wait, ¬ HandsOutSeed v) :
    ∀ i ∈ wait, i.Waits deadline := by
  induction wait with
  | nil => simp
  | cons i rest ih =>
      have first : i.Waits deadline := by
        intro entropy asked
        by_contra late
        have served := (locked.expire asked (UInt64.not_lt.mp late)).1
        apply seedless (visit securityCall s i) List.mem_cons_self
        simp [HandsOutSeed, visit, served]
      have rest := ih fun v member => by
        apply seedless
        rw [trace_cons, locked.call first]
        exact List.mem_cons_of_mem _ member
      intro j member
      rcases List.mem_cons.mp member with rfl | later
      · exact first
      · exact rest j later

end Lockout

theorem SecurityClock.of_append {t : UInt64} {past rest : List SecurityInput}
    (clock : SecurityClock t (past ++ rest)) : ∃ t', SecurityClock t' rest := by
  induction past generalizing t with
  | nil => exact ⟨t, clock⟩
  | cons i past ih => exact ih clock.2.2

theorem SecurityClock.le_now {t : UInt64} {wait more : List SecurityInput} {j : SecurityInput}
    (clock : SecurityClock t (wait ++ j :: more)) : t ≤ j.now ∧ ∀ i ∈ wait, i.now ≤ j.now := by
  induction wait generalizing t with
  | nil => exact ⟨clock.1, by simp⟩
  | cons i rest ih =>
      obtain ⟨first, ordered, later⟩ := clock
      obtain ⟨reached, before⟩ := ih later
      have here : i.now ≤ j.now := UInt64.le_trans ordered reached
      refine ⟨UInt64.le_trans first here, ?_⟩
      intro k member
      rcases List.mem_cons.mp member with rfl | inRest
      · exact here
      · exact before k inRest

/-- **The lock-out, exactly.** A key is answered with `exceededNumberOfAttempts` if and
only if it is the third one rejected since failures were last forgotten. From then on,
with the deadline counted from the clock reading that armed it: seed requests before the
deadline are refused, keys before the next seed are out of sequence, both without any
change of state, and the first seed request at the deadline or later is served and starts
the count again. -/
theorem lockout_exact (past : List SecurityInput) (i : SecurityInput) (rest : List SecurityInput)
    (clock : SecurityClock 0 (past ++ i :: rest))
    (clear : ∀ j ∈ past ++ i :: rest, ClearOfWrap j.later) :
    let third := visit securityCall (securityRun past) i
    (third.output = .key (.error .exceededNumberOfAttempts) ↔
        RejectsWrongKey third ∧ rejectedSince (securityTrace past) = 2) ∧
      (third.output = .key (.error .exceededNumberOfAttempts) →
        ∀ wait j more, rest = wait ++ j :: more →
          let s := securityRun (past ++ i :: wait)
          let deadline := i.later.toNat + securityLockDurationMs.toNat
          (∀ entropy, j.op = .requestSeed entropy → j.now.toNat < deadline →
              securityCall s j = (s, .seed (.refused .requiredTimeDelayNotExpired))) ∧
            (∀ key, j.op = .sendKey key →
              (∀ v ∈ trace securityCall third.after wait, ¬ HandsOutSeed v) →
                securityCall s j = (s, .key (.error .requestSequenceError))) ∧
            (∀ entropy, j.op = .requestSeed entropy → deadline ≤ j.now.toNat →
              (∀ k ∈ wait, ∀ entropy, k.op = .requestSeed entropy → k.now.toNat < deadline) →
                (securityCall s j).2 = .seed (.issued (drawSeed entropy)) ∧
                  rejectedSince (securityTrace (past ++ i :: (wait ++ [j]))) = 0)) := by
  intro third
  have counted := securityRun_counted past fun j member => clear j (by simp [member])
  have thirdClear : ClearOfWrap i.later := clear i (by simp)
  constructor
  · exact counted.exceeded_iff thirdClear
  · intro exceeded wait j more split s deadline
    subst split
    have locked : LockedOut (i.later + securityLockDurationMs) third.after :=
      lockedOut_of_exceeded counted.valid thirdClear exceeded
    have value : (i.later + securityLockDurationMs).toNat = deadline := toNat_deadline thirdClear
    have early : ∀ t : UInt64, t.toNat < deadline → t < i.later + securityLockDurationMs := by
      intro t before
      rw [UInt64.lt_iff_toNat_lt, value]
      exact before
    have point : s = run securityCall third.after wait := by
      simp only [s, securityRun, run_append, run_cons]
      rfl
    obtain ⟨_, window⟩ := clock.of_append
    have ordered := window.2.2.le_now.2
    refine ⟨?_, ?_, ?_⟩
    · intro entropy asked before
      have last : j.now < i.later + securityLockDurationMs := early j.now before
      have waits : ∀ k ∈ wait, k.Waits (i.later + securityLockDurationMs) :=
        fun k member _ _ => UInt64.lt_of_le_of_lt (ordered k member) last
      rw [point, locked.run waits, locked.call (fun _ _ => last), asked]
      rfl
    · intro key asked seedless
      have waits := locked.waits_of_no_seed seedless
      have last : j.Waits (i.later + securityLockDurationMs) := by
        intro entropy seed
        rw [asked] at seed
        cases seed
      rw [point, locked.run waits, locked.call last, asked]
      rfl
    · intro entropy asked due first
      have waits : ∀ k ∈ wait, k.Waits (i.later + securityLockDurationMs) :=
        fun k member entropy seed => early k.now (first k member entropy seed)
      have reached : i.later + securityLockDurationMs ≤ j.now := by
        rw [UInt64.le_iff_toNat_le, value]
        exact due
      obtain ⟨served, noticed⟩ := locked.expire asked reached
      have same : s = third.after := point.trans (locked.run waits)
      have run : past ++ i :: (wait ++ [j]) = (past ++ i :: wait) ++ [j] := by simp
      rw [same]
      refine ⟨served, ?_⟩
      rw [run, securityTrace, trace_snoc]
      apply rejectedSince_forgotten
      right
      change NoticesExpiry (visit securityCall s j)
      rw [same]
      exact noticed

/-- Two wrong keys for the seed one, a relock in between, and a third seed that is out. -/
def twoWrongKeys : List SecurityInput :=
  [⟨.requestSeed (some 1), 1, 1⟩, ⟨.sendKey 0, 1, 1⟩, ⟨.relock, 2, 2⟩,
    ⟨.requestSeed (some 1), 2, 2⟩, ⟨.sendKey 0, 2, 2⟩, ⟨.requestSeed (some 1), 3, 3⟩]

theorem lockout_exact_after_two_wrong_keys :
    let s := securityRun (twoWrongKeys ++ [⟨.sendKey 0, 3, 4⟩])
    (visit securityCall (securityRun twoWrongKeys) ⟨.sendKey 0, 3, 4⟩).output =
        .key (.error .exceededNumberOfAttempts) ∧
      securityCall s ⟨.requestSeed (some 7), 10003, 10003⟩ =
        (s, .seed (.refused .requiredTimeDelayNotExpired)) ∧
      (securityCall (securityRun (twoWrongKeys ++ ⟨.sendKey 0, 3, 4⟩ ::
          [⟨.requestSeed (some 7), 10003, 10003⟩])) ⟨.requestSeed (some 7), 10004, 10004⟩).2 =
        .seed (.issued 7) := by
  obtain ⟨third, after⟩ := lockout_exact twoWrongKeys ⟨.sendKey 0, 3, 4⟩
    [⟨.requestSeed (some 7), 10003, 10003⟩, ⟨.requestSeed (some 7), 10004, 10004⟩]
    (by decide) (by decide)
  have exceeded := third.mpr (by decide +kernel)
  obtain ⟨refused, -, -⟩ := after exceeded [] _ _ rfl
  obtain ⟨-, -, served⟩ := after exceeded [⟨.requestSeed (some 7), 10003, 10003⟩] _ [] rfl
  have waiting : ∀ k ∈ [(⟨.requestSeed (some 7), 10003, 10003⟩ : SecurityInput)],
      ∀ entropy, k.op = .requestSeed entropy → k.now.toNat < 10004 := by
    intro k member _ _
    rw [List.mem_singleton.mp member]
    decide
  exact ⟨exceeded, refused _ rfl (by decide), (served _ rfl (by decide) waiting).1⟩

end VecuUds
