import Mathlib.Data.Fintype.EquivFin
import VecuUds.Foundation.Custody
import VecuUds.Foundation.Trace

/-!
# Socket descriptors

`can_io.c` and `isotp_kernel.c` wrap a socket descriptor each: they open and bind a socket, read
from it, write to it and close it. A handle keeps its descriptor in `sock`, with `-1` for none.
Every system call may fail, and the code behind it decides what happens to the descriptor.

A program may use any number of handles and call the functions in any order. The ledger below
accounts for every open descriptor at every point. There is one way to lose a descriptor: an
open on a handle that is open already, whether it succeeds or fails.
-/

namespace VecuUds

open Foundation

variable {κ : Type} [DecidableEq κ]

/-- The open descriptors of the process, and the `sock` field of each handle. -/
abbrev Sockets (κ : Type) := Custody κ Nat

/-- The lowest descriptor that is not open, which is the one that `socket` returns. -/
def lowestFree (live : Finset Nat) : Nat := Nat.find (Infinite.exists_notMem_finset live)

/-- Whether the system calls of an open succeed, as far as the code looks at them. -/
structure OpenOutcome where
  socket : Bool
  options : Bool
  index : Bool
  bind : Bool

/-- An open: `sock` is reset, the socket is created, and it is closed again if a later call
fails. -/
def socketOpen (s : Sockets κ) (k : κ) (socket : Bool) (rest : List Bool) : Sockets κ × Int :=
  let s := s.forget k
  if ¬ socket then (s, -1)
  else
    let fd := lowestFree s.live
    if rest.all id then (s.take k fd, 0)
    else ({ s with live := (insert fd s.live).erase fd }, -1)

/-- `can_io_open`. -/
def canIoOpen (s : Sockets κ) (io : κ) (o : OpenOutcome) : Sockets κ × Int :=
  socketOpen s io o.socket [o.index, o.bind]

/-- `isotp_kio_open`. The result of the second `setsockopt` is ignored. -/
def isotpKioOpen (s : Sockets κ) (k : κ) (o : OpenOutcome) : Sockets κ × Int :=
  socketOpen s k o.socket [o.options, o.index, o.bind]

/-- What `read` can come back with. -/
inductive ReadOutcome where
  | bytes (data : List UInt8)
  | interrupted
  | again
  | failed

/-- `sizeof(struct can_frame)`. -/
def canFrameSize : Nat := 16

/-- `can_io_recv` on an open socket: its return code and the bytes it stored. -/
def canIoRecv : ReadOutcome → Int × Option (List UInt8)
  | .bytes data => (if data.length ≠ canFrameSize then -1 else 0, some data)
  | .interrupted => (1, none)
  | .again => (-1, none)
  | .failed => (-1, none)

/-- `isotp_kio_recv` on an open socket. -/
def isotpKioRecv : ReadOutcome → Int × Option (List UInt8)
  | .bytes data => (0, some data)
  | .interrupted => (1, none)
  | .again => (-1, none)
  | .failed => (-1, none)

/-- `can_io_send` on an open socket, where `write` returned `n`. -/
def canIoSend (n : Int) : Int := if n ≠ canFrameSize then -1 else 0

/-- `isotp_kio_send` on an open socket. -/
def isotpKioSend (data : List UInt8) (n : Int) : Int := if n ≠ data.length then -1 else 0

/-- The calls of a program on its handles, with what the kernel does. -/
inductive SocketCall (κ : Type) where
  | canIoOpen (io : κ) (o : OpenOutcome)
  | canIoRecv (io : κ) (r : ReadOutcome)
  | canIoSend (io : κ) (n : Int)
  | canIoClose (io : κ)
  | isotpKioOpen (k : κ) (o : OpenOutcome)
  | isotpKioRecv (k : κ) (r : ReadOutcome)
  | isotpKioSend (k : κ) (data : List UInt8) (n : Int)
  | isotpKioClose (k : κ)

/-- The return code of a call, and the descriptor that it handed to the kernel, if it took one
from its handle. -/
structure CallResult where
  rc : Int
  used : Option Nat

/-- A call on a handle without a descriptor fails before it reaches the kernel. -/
def onSocket (s : Sockets κ) (k : κ) (rc : Int) : CallResult :=
  match s.held k with
  | some fd => ⟨rc, some fd⟩
  | none => ⟨-1, none⟩

/-- One call. The two closes are the same code and return nothing. -/
def socketStep (s : Sockets κ) : SocketCall κ → Sockets κ × CallResult
  | .canIoOpen io o => ((canIoOpen s io o).1, ⟨(canIoOpen s io o).2, none⟩)
  | .canIoRecv io r => (s, onSocket s io (canIoRecv r).1)
  | .canIoSend io n => (s, onSocket s io (canIoSend n))
  | .canIoClose io => (s.release io, ⟨0, s.held io⟩)
  | .isotpKioOpen k o => ((isotpKioOpen s k o).1, ⟨(isotpKioOpen s k o).2, none⟩)
  | .isotpKioRecv k r => (s, onSocket s k (isotpKioRecv r).1)
  | .isotpKioSend k data n => (s, onSocket s k (isotpKioSend data n))
  | .isotpKioClose k => (s.release k, ⟨0, s.held k⟩)

/-- The handle of a call. -/
def SocketCall.handle : SocketCall κ → κ
  | .canIoOpen io _ | .canIoRecv io _ | .canIoSend io _ | .canIoClose io => io
  | .isotpKioOpen k _ | .isotpKioRecv k _ | .isotpKioSend k _ _ | .isotpKioClose k => k

def SocketCall.opens : SocketCall κ → Bool
  | .canIoOpen .. | .isotpKioOpen .. => true
  | _ => false

abbrev SocketVisit (κ : Type) := Visit (Sockets κ) (SocketCall κ) CallResult

/-- The descriptor that a call loses: an open forgets what its handle held. -/
def lostBy (v : SocketVisit κ) : Option Nat :=
  if v.input.opens then v.before.held v.input.handle else none

/-! ## The ledger -/

section Ledger

variable {base : Finset Nat} {lost : List Nat} {s : Sockets κ}

theorem lowestFree_notMem (live : Finset Nat) : lowestFree live ∉ live :=
  Nat.find_spec (Infinite.exists_notMem_finset live)

theorem socketOpen_balanced (balanced : s.Balanced base lost) (k : κ) (socket : Bool)
    (rest : List Bool) :
    (socketOpen s k socket rest).1.Balanced base (lost ++ (s.held k).toList) := by
  have forgotten := balanced.forget k
  have fresh := lowestFree_notMem (s.forget k).live
  simp only [socketOpen]
  split_ifs with created bound
  · have empty : (s.forget k).held k = none := by simp [Custody.forget]
    exact forgotten.take empty fresh
  · simpa only [Finset.erase_insert fresh] using forgotten
  · exact forgotten

/-- Every call enters in the ledger what it loses. -/
theorem socketStep_balanced (balanced : s.Balanced base lost) (call : SocketCall κ) :
    (socketStep s call).1.Balanced base (lost ++ (lostBy (visit socketStep s call)).toList) := by
  have nothing : lost ++ (none : Option Nat).toList = lost := List.append_nil lost
  cases call with
  | canIoOpen io o => exact socketOpen_balanced balanced io _ _
  | isotpKioOpen k o => exact socketOpen_balanced balanced k _ _
  | canIoClose io => exact nothing.symm ▸ balanced.release io
  | isotpKioClose k => exact nothing.symm ▸ balanced.release k
  | _ => exact nothing.symm ▸ balanced

theorem run_balanced (base : Finset Nat) (calls : List (SocketCall κ)) :
    (run socketStep (.start base) calls).Balanced base
      ((trace socketStep (.start base) calls).filterMap lostBy) := by
  refine history_invariant socketStep
    (H := fun past s => s.Balanced base (past.filterMap lostBy)) ?_ (.of_start base) calls
  intro past s call balanced
  have step := socketStep_balanced balanced call
  have entry : [visit socketStep s call].filterMap lostBy =
      (lostBy (visit socketStep s call)).toList := by
    rw [List.filterMap_cons, List.filterMap_nil]
    cases lostBy (visit socketStep s call) <;> rfl
  rw [List.filterMap_append, entry]
  exact step

/-- A call uses the descriptor of its own handle. -/
theorem used_held {call : SocketCall κ} {fd : Nat} (used : (socketStep s call).2.used = some fd) :
    s.held call.handle = some fd := by
  have through : ∀ {k : κ} {rc : Int}, (onSocket s k rc).used = some fd → s.held k = some fd := by
    intro k rc used
    cases held : s.held k with
    | some own =>
        rw [onSocket, held] at used
        exact used
    | none =>
        rw [onSocket, held] at used
        cases used
  cases call with
  | canIoOpen io o => cases used
  | isotpKioOpen k o => cases used
  | canIoClose io => exact used
  | isotpKioClose k => exact used
  | _ => exact through used

end Ledger

/-- **Every descriptor is accounted for.** Whatever handles a program uses, in whatever order it
calls the functions and wherever the kernel fails: an open descriptor was open from the start,
belongs to exactly one handle, or was lost by an open on an open handle. No call uses a
descriptor that is closed, or one that it does not own. If nothing was lost, closing all handles
leaves what was open at the start. -/
theorem descriptors_accounted (base : Finset Nat) (calls : List (SocketCall κ)) :
    let visits := trace socketStep (.start base) calls
    let s := run socketStep (.start base) calls
    s.Balanced base (visits.filterMap lostBy) ∧
      (∀ v ∈ visits, ∀ fd, v.output.used = some fd →
        v.before.held v.input.handle = some fd ∧ fd ∈ v.before.live ∧ fd ∉ base) ∧
      ((∀ v ∈ visits, lostBy v = none) → (∀ k, s.held k = none) → s.live = base) := by
  intro visits s
  have balanced : s.Balanced base (visits.filterMap lostBy) := run_balanced base calls
  refine ⟨balanced, ?_, ?_⟩
  · intro v member fd used
    obtain ⟨past, call, future, rfl, rfl⟩ := mem_trace_iff socketStep |>.mp member
    have held := used_held used
    have earlier := run_balanced base past
    exact ⟨held, earlier.held_live held, (earlier.apart held).1⟩
  · intro kept closed
    have none : visits.filterMap lostBy = [] := List.filterMap_eq_nil_iff.mpr kept
    ext fd
    rw [balanced.live_iff fd, none]
    simp [closed]

end VecuUds
