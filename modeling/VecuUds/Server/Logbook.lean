import VecuUds.Server.Register
import VecuUds.Uds.DtcReport

/-!
# Keeping a log of the ECU

Whoever writes down every request with its response, sent or suppressed, and when the S3
thread looked at the session, knows what the ECU keeps: the session and when it was last
refreshed, whether the ECU is unlocked, the owner name, the trouble codes, how long the engine
has been running and what it showed at its last tick. `Logbook.record` is all that has to be
done with an entry. It sees bytes, clock readings and the engine's two waves; the state of the
ECU is not among its arguments.

`Describes` ties a log to a state. That every run keeps it is the one induction of this
module; what the ECU answers is then read off the log.
-/

namespace VecuUds

open Foundation

/-- What the log says of the ECU. -/
structure Logbook where
  session : UInt8
  refreshed : UInt64
  unlocked : Bool
  owner : List UInt8
  codes : List TroubleCode
  ticks : Nat
  engine : UInt16 × UInt8
  deriving DecidableEq

/-- The two trouble codes of a fresh ECU. -/
def seededCodes : List TroubleCode := [.cut 0x030100 seededStatus, .cut 0x042000 seededStatus]

/-- The log of an ECU that was switched on at this reading. -/
def Logbook.opened (boot : UInt64) : Logbook :=
  ⟨udsSessionDefault, boot, false, anonymous, seededCodes, 0, (3200, 0)⟩

/-- An answered request. Negative responses and reports change nothing. -/
def Logbook.answered (b : Logbook) (now : UInt64) (req resp : List UInt8) : Logbook :=
  let sid := byteAt resp 0
  if sid = 0x50 then { b with session := byteAt resp 1, refreshed := now }
  else if sid = 0x51 then
    { b with session := udsSessionDefault, refreshed := now, unlocked := false }
  else if sid = 0x54 then { b with codes := [] }
  else if sid = 0x67 ∧ byteAt resp 1 = 0x02 then { b with unlocked := true }
  else if sid = 0x6E then { b with owner := req.drop 3 }
  else if sid = 0x7E then { b with refreshed := now }
  else b

/-- The session has not been refreshed for too long. -/
def Logbook.Expired (b : Logbook) (now : UInt64) : Prop :=
  b.session ≠ udsSessionDefault ∧ now - b.refreshed > s3TimeoutMs

instance (b : Logbook) (now : UInt64) : Decidable (b.Expired now) :=
  inferInstanceAs (Decidable (_ ∧ _))

/-- One step of the ECU, as it is written down. -/
def Logbook.record (b : Logbook) (i : ServerInput) (resp : List UInt8) : Logbook :=
  match i.op with
  | .request req => b.answered i.amb.now req resp
  | .s3Iteration =>
      if b.Expired i.amb.now then
        { b with session := udsSessionDefault, refreshed := i.amb.later, unlocked := false }
      else b
  | .engineTick =>
      { b with ticks := b.ticks + 1, engine := i.amb.wave (UInt32.ofNat (b.ticks + 1)) }

/-- The log of a run. -/
def logbook (boot : UInt64) (visits : List ServerVisit) : Logbook :=
  visits.foldl (fun b v => b.record v.input (response v)) (.opened boot)

theorem logbook_snoc (boot : UInt64) (past : List ServerVisit) (v : ServerVisit) :
    logbook boot (past ++ [v]) = (logbook boot past).record v.input (response v) := by
  simp [logbook]

/-- The coolant temperature after so many ticks of the engine. -/
def coolantAfter (ticks : Nat) : Nat := min 92 (60 + ticks / 30)

/-- The log says what the state is. -/
structure Describes (b : Logbook) (s : EcuState) : Prop where
  registered : s.dids = ecuDids
  session : s.session = b.session
  refreshed : s.lastTesterPresentMs = b.refreshed
  level : s.security.unlockedLevel = if b.unlocked then 1 else 0
  owner : s.owner.content = b.owner
  codes : s.dtcs.Holds b.codes
  tick : s.app.tick = UInt32.ofNat b.ticks
  coolant : s.app.coolantC.toNat = coolantAfter b.ticks
  engine : (s.app.rpm, s.app.speedKmh) = b.engine

theorem Describes.opened (boot : UInt64) : Describes (.opened boot) (vecuInit boot) where
  registered := rfl
  session := rfl
  refreshed := rfl
  level := rfl
  owner := rfl
  codes := ⟨rfl, rfl⟩
  tick := rfl
  coolant := by
    change (60 : UInt8).toNat = coolantAfter 0
    decide
  engine := rfl

section Steps

variable {b : Logbook} {s s' : EcuState} {i : ServerInput}

/-- One tick of the engine. The counter may wrap only when the engine has long been warm. -/
theorem coolant_tick {a : AppEngine} {ticks : Nat} (tick : a.tick = UInt32.ofNat ticks)
    (coolant : a.coolantC.toNat = coolantAfter ticks) (wave : UInt32 → UInt16 × UInt8) :
    (appEngineTick wave a).tick = UInt32.ofNat (ticks + 1) ∧
      (appEngineTick wave a).coolantC.toNat = coolantAfter (ticks + 1) := by
  have next : (appEngineTick wave a).tick = UInt32.ofNat (ticks + 1) := by
    simp only [appEngineTick, tick]
    exact (UInt32.ofNat_add ticks 1).symm
  refine ⟨next, ?_⟩
  have warms : (appEngineTick wave a).coolantC =
      if a.coolantC < 92 ∧ (appEngineTick wave a).tick % 30 = 0 then a.coolantC + 1
      else a.coolantC := rfl
  have cool : a.coolantC < 92 ↔ a.coolantC.toNat < 92 := UInt8.lt_iff_toNat_lt
  have divides : (UInt32.ofNat (ticks + 1)) % 30 = 0 ↔ (ticks + 1) % 2 ^ 32 % 30 = 0 := by
    rw [← UInt32.toNat_inj, UInt32.toNat_mod, UInt32.toNat_ofNat']
    rfl
  rw [warms, next]
  simp only [coolantAfter] at coolant ⊢
  split_ifs with warming
  · rw [cool, divides] at warming
    have small : (ticks + 1) % 2 ^ 32 = ticks + 1 := Nat.mod_eq_of_lt (by omega)
    rw [small] at warming
    rw [UInt8.toNat_add]
    change (a.coolantC.toNat + 1) % 256 = _
    omega
  · rw [cool, divides] at warming
    by_cases warm : a.coolantC.toNat < 92
    · have small : (ticks + 1) % 2 ^ 32 = ticks + 1 := Nat.mod_eq_of_lt (by omega)
      rw [small] at warming
      omega
    · omega

/-- The log of an answered request. -/
theorem Describes.request (describes : Describes b s) {req : List UInt8} {reply : Reply}
    (effect : Effect i.amb s req s' reply) :
    Describes (b.answered i.amb.now req reply.resp) s' := by
  cases effect with
  | refused nrc => exact { describes with }
  | sessionControl raw request known => exact { describes with session := rfl, refreshed := rfl }
  | ecuReset => exact { describes with session := rfl, refreshed := rfl, level := rfl }
  | clearDtc => exact { describes with codes := describes.codes.clearAll }
  | readDtc => exact { describes with }
  | readDid => exact { describes with }
  | requestSeed raw request known gate t result seed effect carried =>
      have same : t.unlockedLevel = s.security.unlockedLevel := by cases effect <;> rfl
      exact { describes with level := same.trans describes.level }
  | keyAccepted raw k₀ k₁ k₂ k₃ request known gate t effect =>
      have one : t.unlockedLevel = 1 := by
        cases effect
        rfl
      exact { describes with level := one }
  | keyRejected raw k₀ k₁ k₂ k₃ request known gate t nrc judged effect =>
      have same : t.unlockedLevel = s.security.unlockedLevel := by cases effect <;> rfl
      exact { describes with level := same.trans describes.level }
  | writeDid data request nonempty fits gate unlocked =>
      subst request
      exact { describes with owner := OwnerName.content_store _ _ _ }
  | testerPresent => exact { describes with refreshed := rfl }

/-- Every step of the ECU keeps the log true. -/
theorem Describes.step (describes : Describes b s) (i : ServerInput) :
    Describes (b.record i (response (visit serverStep s i))) (serverStep s i).1 := by
  cases op : i.op with
  | request req =>
      have effect := serverStep_effect describes.registered i
      change Describes (b.record i (((serverStep s i).2.map Reply.resp).getD [])) _
      generalize (serverStep s i).1 = s', (serverStep s i).2 = reply at effect ⊢
      cases effect with
      | request req' op' effect =>
          simp only [Logbook.record, op']
          exact describes.request effect
      | empty op' =>
          simp only [Logbook.record, op']
          exact describes
      | s3Idle op' | s3Timeout op' | engineTick op' => exact absurd (op.symm.trans op') (by simp)
  | s3Iteration =>
      have after : (serverStep s i).1 = if b.Expired i.amb.now then
          { vecuSetSession i.amb.later s udsSessionDefault with security := s.security.relock }
          else s := by
        simp only [serverStep, op, s3Iteration_eq, describes.session, describes.refreshed]
        rfl
      rw [after]
      simp only [Logbook.record, op]
      split_ifs
      · exact { describes with session := rfl, refreshed := rfl, level := rfl }
      · exact describes
  | engineTick =>
      obtain ⟨next, coolant⟩ := coolant_tick describes.tick describes.coolant i.amb.wave
      have shown : ((appEngineTick i.amb.wave s.app).rpm,
          (appEngineTick i.amb.wave s.app).speedKmh) =
            i.amb.wave (UInt32.ofNat (b.ticks + 1)) := by
        rw [← next]
        rfl
      simp only [Logbook.record, serverStep, op]
      exact { describes with tick := next, coolant := coolant, engine := shown }

end Steps

/-- At every point of every run the log says what the state is. An S3 iteration is one
complete step of the run. -/
theorem logbook_describes (boot : UInt64) (inputs : List ServerInput) :
    Describes (logbook boot (serverTrace boot inputs)) (serverRun boot inputs) := by
  refine history_invariant serverStep
    (H := fun past s => Describes (logbook boot past) s) ?_ (.opened boot) inputs
  intro past s i describes
  rw [logbook_snoc]
  exact describes.step i

end VecuUds
