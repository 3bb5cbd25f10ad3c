import VecuUds.Foundation.Trace
import VecuUds.Uds.Effect

/-!
# Runs of the ECU

Between two requests the S3 thread and the application thread may act on the shared
state. A run is a list of inputs: requests on arbitrary byte strings, complete
iterations of the S3 loop and engine ticks, each with the surroundings it meets. The
recorded visits of `Foundation.trace` are the history that later modules speak about.

The clock of a run is non-decreasing: each step's first reading is not before the
previous step's second one. Nothing else is assumed about times, seeds or telemetry.
-/

namespace VecuUds

open Foundation

/-- `S3_TIMEOUT_MS`. -/
def s3TimeoutMs : UInt64 := 5000

/-- One iteration of `s3_thread_main` without interruption: session, clock and
timestamp are read, and an expired session is reverted and relocked. -/
def s3Iteration {ρ ω : Type} (amb : Ambient) (s : VecuState ρ ω) : VecuState ρ ω :=
  if s.session ≠ udsSessionDefault then
    if amb.now - s.lastTesterPresentMs > s3TimeoutMs then
      let s := vecuSetSession amb.later s udsSessionDefault
      { s with security := s.security.relock }
    else s
  else s

/-- The two tests of an iteration, as one. -/
theorem s3Iteration_eq {ρ ω : Type} (amb : Ambient) (s : VecuState ρ ω) :
    s3Iteration amb s =
      if s.session ≠ udsSessionDefault ∧ amb.now - s.lastTesterPresentMs > s3TimeoutMs then
        { vecuSetSession amb.later s udsSessionDefault with security := s.security.relock }
      else s := by
  rw [ite_and]
  rfl

/-- The atomic steps of a run. -/
inductive ServerOp where
  | request (req : List UInt8)
  | s3Iteration
  | engineTick
  deriving DecidableEq, Repr

structure ServerInput where
  op : ServerOp
  amb : Ambient

/-- One atomic step, with the reply of a request. -/
def serverStep (s : EcuState) (i : ServerInput) : EcuState × Option Reply :=
  match i.op with
  | .request req =>
      let r := udsProcessRequest i.amb s req udsMaxMsgLen
      (r.1, some r.2)
  | .s3Iteration => (s3Iteration i.amb s, none)
  | .engineTick => ({ s with app := appEngineTick i.amb.wave s.app }, none)

abbrev ServerVisit := Visit EcuState ServerInput (Option Reply)

/-- The state of a run that started with `vecu_init` at clock reading `boot`. -/
def serverRun (boot : UInt64) (inputs : List ServerInput) : EcuState :=
  run serverStep (vecuInit boot) inputs

/-- The recorded visits of the same run. -/
def serverTrace (boot : UInt64) (inputs : List ServerInput) : List ServerVisit :=
  trace serverStep (vecuInit boot) inputs

/-- Surroundings in which the clock stands at `t` and the entropy source yields one. -/
def Ambient.still (t : UInt64) : Ambient := ⟨t, t, some 1, fun _ => (3200, 0)⟩

/-- A request sent while the clock stands at `t`. -/
def ServerInput.requestAt (t : UInt64) (req : List UInt8) : ServerInput := ⟨.request req, .still t⟩

/-- The clock readings of the inputs do not decrease, starting from `t`. -/
def ClockFrom : UInt64 → List ServerInput → Prop
  | _, [] => True
  | t, i :: rest => t ≤ i.amb.now ∧ i.amb.now ≤ i.amb.later ∧ ClockFrom i.amb.later rest

instance decidableClockFrom : (t : UInt64) → (inputs : List ServerInput) →
    Decidable (ClockFrom t inputs)
  | _, [] => .isTrue trivial
  | _, i :: rest =>
      have := decidableClockFrom i.amb.later rest
      inferInstanceAs (Decidable (_ ∧ _ ∧ _))

/-- The last clock reading of the inputs, or `t` if there is none. -/
def lastReading (t : UInt64) : List ServerInput → UInt64
  | [] => t
  | i :: rest => lastReading i.amb.later rest

theorem clockFrom_append {t : UInt64} {first second : List ServerInput} :
    ClockFrom t (first ++ second) ↔
      ClockFrom t first ∧ ClockFrom (lastReading t first) second := by
  induction first generalizing t with
  | nil => simp [ClockFrom, lastReading]
  | cons i rest ih => simp [ClockFrom, lastReading, ih, and_assoc]

/-! ## What one step can do -/

/-- Every outcome of one atomic step. -/
inductive ServerEffect (s : EcuState) (i : ServerInput) : EcuState → Option Reply → Prop where
  | request (req : List UInt8) (op : i.op = .request req) {s' : EcuState} {reply : Reply}
      (effect : Effect i.amb s req s' reply) : ServerEffect s i s' (some reply)
  | empty (op : i.op = .request []) : ServerEffect s i s (some .dropped)
  | s3Idle (op : i.op = .s3Iteration) : ServerEffect s i s none
  | s3Timeout (op : i.op = .s3Iteration) (active : s.session ≠ udsSessionDefault)
      (expired : i.amb.now - s.lastTesterPresentMs > s3TimeoutMs) :
      ServerEffect s i
        { vecuSetSession i.amb.later s udsSessionDefault with security := s.security.relock } none
  | engineTick (op : i.op = .engineTick) :
      ServerEffect s i { s with app := appEngineTick i.amb.wave s.app } none

theorem serverStep_effect {s : EcuState} (registered : s.dids = ecuDids) (i : ServerInput) :
    ServerEffect s i (serverStep s i).1 (serverStep s i).2 := by
  cases op : i.op with
  | request req =>
      simp only [serverStep, op]
      by_cases nonempty : req = []
      · subst nonempty
        exact .empty op
      · exact .request req op (udsProcessRequest_effect i.amb registered nonempty)
  | s3Iteration =>
      simp only [serverStep, op, s3Iteration]
      split_ifs with active expired
      · exact .s3Timeout op active expired
      · exact .s3Idle op
      · exact .s3Idle op
  | engineTick =>
      simp only [serverStep, op]
      exact .engineTick op

/-- No service writes the DID table. -/
theorem Effect.dids {amb : Ambient} {s s' : EcuState} {req : List UInt8} {reply : Reply}
    (effect : Effect amb s req s' reply) : s'.dids = s.dids := by
  cases effect <;> rfl

theorem ServerEffect.dids {s s' : EcuState} {i : ServerInput} {reply : Option Reply}
    (effect : ServerEffect s i s' reply) : s'.dids = s.dids := by
  cases effect with
  | request req op effect => exact effect.dids
  | _ => rfl

theorem run_dids {s : EcuState} (registered : s.dids = ecuDids) (inputs : List ServerInput) :
    (run serverStep s inputs).dids = ecuDids := by
  refine run_invariant serverStep (P := fun s => s.dids = ecuDids) ?_ registered inputs
  intro s i registered
  exact (serverStep_effect registered i).dids.trans registered

/-- The table of `vecu_init` is in place at every point of every run. -/
theorem serverRun_dids (boot : UInt64) (inputs : List ServerInput) :
    (serverRun boot inputs).dids = ecuDids :=
  run_dids rfl inputs

/-- The effect of the step that extends a run by one input. -/
theorem serverRun_effect (boot : UInt64) (past : List ServerInput) (i : ServerInput) :
    ServerEffect (serverRun boot past) i (serverStep (serverRun boot past) i).1
      (serverStep (serverRun boot past) i).2 :=
  serverStep_effect (serverRun_dids boot past) i

end VecuUds
