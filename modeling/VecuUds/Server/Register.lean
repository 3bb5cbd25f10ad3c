import VecuUds.Server.Reset
import VecuUds.Server.Authorisation

/-!
# The owner name as a register

The owner name lives in a fixed buffer with a separate length, is written through one
handler and read through another. Over a whole run it behaves as a register with the
last write winning: a read answers the data of the last write that was answered
positively, whatever happened in between.
-/

namespace VecuUds

open Foundation

/-- The data of a `2E F2 00` request that was answered positively. -/
def ownerWritten (v : ServerVisit) : Option (List UInt8) :=
  match v.input.op with
  | .request req =>
      if req.take 3 = [0x2E, 0xF2, 0x00] ∧ response v = [0x6E, 0xF2, 0x00] then some (req.drop 3)
      else none
  | _ => none

/-- "ANONYMOUS", the name before any write. -/
def anonymous : List UInt8 := [0x41, 0x4E, 0x4F, 0x4E, 0x59, 0x4D, 0x4F, 0x55, 0x53]

/-- The data of the last positive write among the visits, or the default name. -/
def lastName (visits : List ServerVisit) : List UInt8 :=
  ((visits.filterMap ownerWritten).getLast?).getD anonymous

theorem lastName_snoc_written {past : List ServerVisit} {v : ServerVisit} {data : List UInt8}
    (written : ownerWritten v = some data) : lastName (past ++ [v]) = data := by
  simp [lastName, List.filterMap_append, written]

theorem lastName_snoc_other {past : List ServerVisit} {v : ServerVisit}
    (other : ownerWritten v = none) : lastName (past ++ [v]) = lastName past := by
  simp [lastName, List.filterMap_append, other]

theorem ownerWritten_of_head {v : ServerVisit} (head : byteAt (response v) 0 ≠ 0x6E) :
    ownerWritten v = none := by
  have unanswered : response v ≠ [0x6E, 0xF2, 0x00] := by
    intro answered
    exact head (by rw [answered]; rfl)
  simp only [ownerWritten, unanswered, and_false, if_false]
  split <;> rfl

/-- One step stores exactly the data that its answer acknowledges. -/
theorem ServerEffect.owner {s s' : EcuState} {i : ServerInput} {reply : Option Reply}
    (effect : ServerEffect s i s' reply) :
    s'.owner.content = (ownerWritten ⟨s, i, reply, s'⟩).getD s.owner.content := by
  cases effect with
  | request req op effect =>
      cases effect with
      | writeDid data request nonempty fits gate unlocked =>
          have written : ownerWritten ⟨s, i, some (.positive [0x6E, 0xF2, 0x00] 3),
              { s with owner := s.owner.store data fits }⟩ = some data := by
            simp [ownerWritten, op, request, response, Reply.positive]
          rw [written]
          exact OwnerName.content_store s.owner data fits
      | _ =>
          rw [ownerWritten_of_head (by simp [response, Reply.negative, Reply.suppressible,
            Reply.positive, buildNrc, udsNegativeResponse])]
          rfl
  | _ =>
      rw [ownerWritten_of_head (by simp [response, Reply.dropped, byteAt])]
      rfl

/-- At every point of a run the buffer holds the last name written. -/
theorem serverRun_owner (boot : UInt64) (past : List ServerInput) :
    (serverRun boot past).owner.content = lastName (serverTrace boot past) := by
  induction past using List.reverseRecOn with
  | nil => rfl
  | append_singleton past i ih =>
      rw [serverTrace, trace_snoc, serverRun, run_snoc]
      change (serverStep (serverRun boot past) i).1.owner.content =
        lastName (serverTrace boot past ++ [visit serverStep (serverRun boot past) i])
      have stored : (serverStep (serverRun boot past) i).1.owner.content =
          (ownerWritten (visit serverStep (serverRun boot past) i)).getD
            (serverRun boot past).owner.content := (serverRun_effect boot past i).owner
      cases written : ownerWritten (visit serverStep (serverRun boot past) i) with
      | none => rw [stored, written, lastName_snoc_other written, ← ih]; rfl
      | some data => rw [stored, written, lastName_snoc_written written]; rfl

/-- A read of the owner name answers what the buffer holds. -/
theorem read_owner (amb : Ambient) {s : EcuState} (registered : s.dids = ecuDids) {cap : Nat}
    (room : 35 ≤ cap) :
    udsProcessRequest amb s [0x22, 0xF2, 0x00] cap =
      (s, .positive ([0x62, 0xF2, 0x00] ++ s.owner.content) (3 + s.owner.content.length)) := by
  have accepted : ¬ (([0x22, 0xF2, 0x00] : List UInt8).length = 0 ∨ cap < 3) := by
    simp only [List.length_cons, List.length_nil]
    omega
  have short : s.owner.content.length ≤ 32 := by
    have bound := s.owner.len_le
    simp only [OwnerName.content, List.length_take, ownerNameCap] at bound ⊢
    omega
  have fits : ¬ cap < 3 + s.owner.content.length := by omega
  have payload : ∀ e, didTableLookup ecuDids 0xF200 = some e →
      didPayload s e = .bytes s.owner.content := by
    intro e found
    cases found
    have content : DidCallbacks.read DidReadFn.ownerRead s 256 = some s.owner.content :=
      ownerRead_eq s.owner
    simp only [didPayload, content]
  rw [udsProcessRequest, if_neg accepted]
  change hReadDid amb s [0x22, 0xF2, 0x00] cap = _
  have did : join16 (byteAt [0x22, 0xF2, 0x00] 1) (byteAt [0x22, 0xF2, 0x00] 2) = 0xF200 := rfl
  simp only [hReadDid, did, registered]
  cases found : didTableLookup ecuDids 0xF200 with
  | none => exact absurd found (by decide)
  | some e =>
      simp only [payload e found, fits, if_false]
      rfl

/-- **The owner name is a last-write-wins register.** -/
theorem owner_name_last_write_wins (boot : UInt64) (past : List ServerInput) (amb : Ambient)
    (cap : Nat) (room : 35 ≤ cap) :
    (udsProcessRequest amb (serverRun boot past) [0x22, 0xF2, 0x00] cap).2 =
      .positive ([0x62, 0xF2, 0x00] ++ lastName (serverTrace boot past))
        (3 + (lastName (serverTrace boot past)).length) := by
  rw [read_owner amb (serverRun_dids boot past) room, serverRun_owner]

/-- A long name, a shorter one over it, a rejected empty one and a reset. -/
def renameSequence : List ServerInput :=
  unlockSequence ++
    [.requestAt 3 [0x2E, 0xF2, 0x00, 0x42, 0x4F, 0x42], .requestAt 4 [0x2E, 0xF2, 0x00, 0x41],
      .requestAt 5 [0x2E, 0xF2, 0x00], .requestAt 6 [0x11, 0x01],
      .requestAt 7 [0x2E, 0xF2, 0x00, 0x43]]

theorem owner_name_last_write_wins_renamed :
    (udsProcessRequest (.still 8) (serverRun 0 renameSequence) [0x22, 0xF2, 0x00] 35).2 =
      .positive [0x62, 0xF2, 0x00, 0x41] 4 := by
  rw [owner_name_last_write_wins 0 renameSequence (.still 8) 35 (by decide)]
  decide +kernel

end VecuUds
