import VecuUds.Foundation.Schedule
import VecuUds.Threads.Sequential

/-!
# The whole process

`main` spawns the four threads, sleeps until a signal has set the stop flag, shuts the
queue, closes the socket, joins the threads and destroys what they shared. The receiving
and the dispatching thread are those of the pipeline; the application and the S3 thread
alternate between one step on the ECU and a nap.

`main` tests the flag and then calls `pause`, which ends only when a handler interrupts it.
A signal that is handled between the test and the call, or on another thread, sets the flag
and interrupts nothing: `signal` says whether its handler ended a `pause`.

A step of the process is a step of the pipeline or leaves the pipeline alone. `actions`
collects the pipeline's steps of a schedule. `main` closes the socket while the dispatching
thread may still have a response to send, so what that thread passes to `isotp_kio_send` is
one thing and what is `written` another.

A call of the queue is one step here, tried again as long as it has to wait.
`Threads.Waiting` has the process with the waiting inside, and shows that it goes the same
ways.
-/

namespace VecuUds

open Foundation

/-- Where `main` is, from its wait loop on. -/
inductive MainPc where
  | check
  | pause
  | shutdown
  | close
  | joinRx
  | joinDispatch
  | joinApp
  | joinS3
  | destroyQueue
  | destroyState
  | returned
  deriving DecidableEq, Repr

/-- Where `app_thread_main` and `s3_thread_main` are. -/
inductive WorkerPc where
  | check
  | work
  | nap
  | exited
  deriving DecidableEq, Repr

structure Process where
  pipe : Pipeline
  main : MainPc
  app : WorkerPc
  s3 : WorkerPc
  socketOpen : Bool

/-- The process when `main` has created the threads. -/
def Process.start (boot : UInt64) (buf msg resp : UdsMsg) : Process where
  pipe := .start boot buf msg resp
  main := .check
  app := .check
  s3 := .check
  socketOpen := true

inductive ProcessAction where
  | signal (wakes : Bool)
  | main
  | rx (outcome : KioRecv)
  | dispatch (amb : Ambient)
  | app (amb : Ambient)
  | s3 (amb : Ambient)

/-- A step of `main`. A join returns only when its thread has. -/
def Process.mainStep (p : Process) : Process :=
  match p.main with
  | .check => { p with main := if p.pipe.stop then .shutdown else .pause }
  | .pause => p
  | .shutdown => { p with pipe := (pipelineStep p.pipe .mainShutdown).1, main := .close }
  | .close => { p with socketOpen := false, main := .joinRx }
  | .joinRx => if p.pipe.rx.pc = .exited then { p with main := .joinDispatch } else p
  | .joinDispatch => if p.pipe.dispatch.pc = .exited then { p with main := .joinApp } else p
  | .joinApp => if p.app = .exited then { p with main := .joinS3 } else p
  | .joinS3 => if p.s3 = .exited then { p with main := .destroyQueue } else p
  | .destroyQueue => { p with main := .destroyState }
  | .destroyState => { p with main := .returned }
  | .returned => p

/-- The next statement of a worker's loop. -/
def WorkerPc.next (stop : Bool) : WorkerPc → WorkerPc
  | .check => if stop then .exited else .work
  | .work => .nap
  | .nap => .check
  | .exited => .exited

/-- A step of `app_thread_main`. -/
def Process.appStep (p : Process) (amb : Ambient) : Process :=
  match p.app with
  | .work => { p with pipe := (pipelineStep p.pipe (.tick amb)).1, app := .nap }
  | pc => { p with app := pc.next p.pipe.stop }

/-- A step of `s3_thread_main`. The loop body is one step, as in the pipeline. -/
def Process.s3Step (p : Process) (amb : Ambient) : Process :=
  match p.s3 with
  | .work => { p with pipe := (pipelineStep p.pipe (.s3 amb)).1, s3 := .nap }
  | pc => { p with s3 := pc.next p.pipe.stop }

/-- A handled signal. -/
def Process.signalStep (p : Process) (wakes : Bool) : Process :=
  { p with
    pipe := (pipelineStep p.pipe .signal).1
    main := if wakes ∧ p.main = .pause then .check else p.main }

def processStep (p : Process) : ProcessAction → Process × Unit
  | .signal wakes => (p.signalStep wakes, ())
  | .main => (p.mainStep, ())
  | .rx outcome => ({ p with pipe := (pipelineStep p.pipe (.rx outcome)).1 }, ())
  | .dispatch amb => ({ p with pipe := (pipelineStep p.pipe (.dispatch amb)).1 }, ())
  | .app amb => (p.appStep amb, ())
  | .s3 amb => (p.s3Step amb, ())

/-- The step of the pipeline that an action of the process takes, if it takes one. -/
def Process.action (p : Process) : ProcessAction → Option PipelineAction
  | .signal _ => some .signal
  | .main => if p.main = .shutdown then some .mainShutdown else none
  | .rx outcome => some (.rx outcome)
  | .dispatch amb => some (.dispatch amb)
  | .app amb => if p.app = .work then some (.tick amb) else none
  | .s3 amb => if p.s3 = .work then some (.s3 amb) else none

/-- The pipeline's part of a schedule. -/
def Process.actions (p : Process) (schedule : List ProcessAction) : List PipelineAction :=
  project processStep Process.action p schedule

theorem Process.actions_cons (p : Process) (a : ProcessAction) (rest : List ProcessAction) :
    p.actions (a :: rest) = (p.action a).toList ++ (processStep p a).1.actions rest := rfl

/-- What the dispatching thread passes to `isotp_kio_send`. -/
def Process.passes (p : Process) : ProcessAction → Option (List UInt8)
  | .dispatch _ =>
      if p.pipe.dispatch.pc = .send then
        some (p.pipe.dispatch.resp.take p.pipe.dispatch.respLen)
      else none
  | _ => none

/-- What `isotp_kio_send` writes. Once `main` has closed the socket it returns -1 before the
`write`, and the dispatching thread goes on all the same. -/
def Process.writes (p : Process) (a : ProcessAction) : Option (List UInt8) :=
  if p.socketOpen then p.passes a else none

/-- The process steps its pipeline as the pipeline steps itself. -/
theorem processStep_pipe (p : Process) (a : ProcessAction) :
    (processStep p a).1.pipe = run pipelineStep p.pipe (p.action a).toList := by
  cases a with
  | signal wakes => rfl
  | main =>
      simp only [processStep, Process.mainStep, Process.action]
      cases pc : p.main
      case shutdown => rfl
      all_goals
        simp only [reduceCtorEq, if_false]
        first
        | rfl
        | split_ifs <;> rfl
  | rx outcome => rfl
  | dispatch amb => rfl
  | app amb =>
      simp only [processStep, Process.appStep, Process.action]
      cases p.app <;> rfl
  | s3 amb =>
      simp only [processStep, Process.s3Step, Process.action]
      cases p.s3 <;> rfl

/-- The process after a schedule. -/
def processRun (boot : UInt64) (buf msg resp : UdsMsg) (schedule : List ProcessAction) : Process :=
  run processStep (.start boot buf msg resp) schedule

/-- What the pipeline of the process has shown. -/
def pipelineVisits (boot : UInt64) (buf msg resp : UdsMsg) (schedule : List ProcessAction) :
    List PipelineVisit :=
  trace pipelineStep (.start boot buf msg resp)
    ((Process.start boot buf msg resp).actions schedule)

/-- The responses that the process has written to the socket. -/
def written (boot : UInt64) (buf msg resp : UdsMsg) (schedule : List ProcessAction) :
    List (List UInt8) :=
  project processStep Process.writes (.start boot buf msg resp) schedule

section Runs

variable (boot : UInt64) (buf msg resp : UdsMsg)

/-- The pipeline of the process is a run of the pipeline. -/
theorem processRun_pipe (schedule : List ProcessAction) :
    (processRun boot buf msg resp schedule).pipe =
      run pipelineStep (.start boot buf msg resp)
        ((Process.start boot buf msg resp).actions schedule) :=
  run_project Process.pipe processStep_pipe _ schedule

/-- What is known of the pipeline's runs is known of the process. -/
theorem processRun_faithful (schedule : List ProcessAction) :
    Faithful boot (pipelineVisits boot buf msg resp schedule)
      (processRun boot buf msg resp schedule).pipe := by
  rw [processRun_pipe]
  exact history_invariant pipelineStep (H := Faithful boot)
    (fun _ _ action faithful => faithful.step action) (.start boot buf msg resp) _

/-- A longer schedule shows more, in the same order. -/
theorem pipelineVisits_append (past future : List ProcessAction) :
    pipelineVisits boot buf msg resp (past ++ future) =
      pipelineVisits boot buf msg resp past ++
        trace pipelineStep (processRun boot buf msg resp past).pipe
          ((processRun boot buf msg resp past).actions future) := by
  rw [pipelineVisits, Process.actions, project_append, trace_append, processRun_pipe]
  rfl

end Runs

end VecuUds
