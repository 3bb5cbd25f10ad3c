import VecuUds.Uds.Effect

/-!
# Who may write a DID

`h_write_did` against every table that `did_table_add` can build. The write callbacks are
calls out of the handler, so the handler is stated once more with its callbacks in a monad:
in the identity monad it is the handler, and in a state monad that collects calls it shows
which callback it invokes, with which bytes and how often.

A table may hold several entries for one DID. The first one alone decides, so what is
registered later can neither open nor close a DID.
-/

namespace VecuUds

open Foundation

variable {ρ ω : Type}

/-! ## The handler and its callbacks -/

/-- `h_write_did`, with the callback as a call in a monad. -/
def hWriteDidM {m : Type → Type} [Monad m]
    (write : ω → VecuState ρ ω → List UInt8 → m (Int × VecuState ρ ω)) (state : VecuState ρ ω)
    (req : List UInt8) : m (VecuState ρ ω × Reply) :=
  if req.length < 4 then pure (state, .negative (byteAt req 0) .incorrectMessageLength)
  else
    let did := join16 (byteAt req 1) (byteAt req 2)
    match didTableLookup state.dids did with
    | none => pure (state, .negative (byteAt req 0) .requestOutOfRange)
    | some e =>
        match e.write with
        | none => pure (state, .negative (byteAt req 0) .requestOutOfRange)
        | some fn =>
            if e.requiresExtendedSession ∧ ¬ isExtendedSession state then
              pure (state, .negative (byteAt req 0) .serviceNotSupportedInSession)
            else if e.requiresSecurity ∧ ¬ securityIsUnlocked state.security 0x01 then
              pure (state, .negative (byteAt req 0) .securityAccessDenied)
            else do
              let r ← write fn state (req.drop 3)
              if r.1 ≠ 0 then pure (r.2, .negative (byteAt req 0) .conditionsNotCorrect)
              else
                pure (r.2,
                  .positive
                    [udsPosResp (byteAt req 0), (did >>> 8).toUInt8, (did &&& 0xFF).toUInt8] 3)

/-- Call a write callback and note the call. -/
def recordWrite [DidCallbacks ρ ω] (fn : ω) (state : VecuState ρ ω) (input : List UInt8) :
    StateM (List (ω × List UInt8)) (Int × VecuState ρ ω) := do
  modify (· ++ [(fn, input)])
  pure (DidCallbacks.write fn state input)

/-- The outcome of `h_write_did`, with the callbacks that it has invoked. -/
def recordedWriteDid [DidCallbacks ρ ω] (state : VecuState ρ ω) (req : List UInt8) :
    (VecuState ρ ω × Reply) × List (ω × List UInt8) :=
  (hWriteDidM recordWrite state req).run []

/-! ## Who may write -/

/-- The DID that a write request names. -/
def writtenDid (req : List UInt8) : UInt16 := join16 (byteAt req 1) (byteAt req 2)

/-- The two gates of an entry are open. -/
structure Permits (s : VecuState ρ ω) (e : DidEntry ρ ω) : Prop where
  session : e.requiresExtendedSession = true →
    s.session = udsSessionExtended ∨ s.session = udsSessionProgramming
  security : e.requiresSecurity = true → 1 ≤ s.security.unlockedLevel

/-- The request writes through this callback: it carries a byte to write, and the entry found
for its DID has the callback and lets the tester pass. -/
structure MayWrite (found : Option (DidEntry ρ ω)) (s : VecuState ρ ω) (req : List UInt8)
    (fn : ω) : Prop where
  long : 4 ≤ req.length
  entry : ∃ e, found = some e ∧ e.write = some fn ∧ Permits s e

section Handler

variable {s : VecuState ρ ω} {req : List UInt8} {e : DidEntry ρ ω} {fn : ω}

/-- The gates as the handler tests them. -/
theorem permits_iff :
    Permits s e ↔ ¬ (e.requiresExtendedSession ∧ ¬ isExtendedSession s) ∧
      ¬ (e.requiresSecurity ∧ ¬ securityIsUnlocked s.security 0x01) := by
  have session : isExtendedSession s = true ↔
      s.session = udsSessionExtended ∨ s.session = udsSessionProgramming := decide_eq_true_iff
  have security : securityIsUnlocked s.security 0x01 = true ↔ 1 ≤ s.security.unlockedLevel :=
    decide_eq_true_iff
  rw [session, security, not_and_not_right, not_and_not_right]
  constructor
  · intro permits
    exact ⟨permits.session, permits.security⟩
  · intro gates
    exact ⟨gates.1, gates.2⟩

/-- A request that may write is one call of the callback, in every monad. -/
theorem hWriteDidM_granted {m : Type → Type} [Monad m]
    (write : ω → VecuState ρ ω → List UInt8 → m (Int × VecuState ρ ω))
    (grants : MayWrite (didTableLookup s.dids (writtenDid req)) s req fn) :
    hWriteDidM write s req = (do
      let r ← write fn s (req.drop 3)
      if r.1 ≠ 0 then pure (r.2, .negative (byteAt req 0) .conditionsNotCorrect)
      else
        pure (r.2, .positive [udsPosResp (byteAt req 0), byteAt req 1, byteAt req 2] 3)) := by
  obtain ⟨long, e, found, callback, permits⟩ := grants
  obtain ⟨session, security⟩ := permits_iff.mp permits
  rw [writtenDid] at found
  simp only [hWriteDidM, if_neg (Nat.not_lt.mpr long), found, callback, if_neg session,
    if_neg security, join16_high, join16_low]

/-- A request that may not write is refused without a call. -/
theorem hWriteDidM_refused
    (none : ¬ ∃ fn, MayWrite (didTableLookup s.dids (writtenDid req)) s req fn) :
    ∃ nrc, ∀ {m : Type → Type} [Monad m]
      (write : ω → VecuState ρ ω → List UInt8 → m (Int × VecuState ρ ω)),
      hWriteDidM write s req = pure (s, .negative (byteAt req 0) nrc) := by
  by_cases long : 4 ≤ req.length
  swap
  · refine ⟨.incorrectMessageLength, fun write => ?_⟩
    rw [hWriteDidM, if_pos (Nat.lt_of_not_le long)]
  have length : ¬ req.length < 4 := Nat.not_lt.mpr long
  rw [writtenDid] at none
  cases found : didTableLookup s.dids (join16 (byteAt req 1) (byteAt req 2)) with
  | none =>
      refine ⟨.requestOutOfRange, fun write => ?_⟩
      simp only [hWriteDidM, if_neg length, found]
  | some e =>
      cases callback : e.write with
      | none =>
          refine ⟨.requestOutOfRange, fun write => ?_⟩
          simp only [hWriteDidM, if_neg length, found, callback]
      | some fn =>
          have shut : ¬ Permits s e := by
            intro permits
            exact none ⟨fn, long, e, found, callback, permits⟩
          rw [permits_iff, not_and_or, not_not, not_not] at shut
          by_cases session : e.requiresExtendedSession ∧ ¬ isExtendedSession s
          · refine ⟨.serviceNotSupportedInSession, fun write => ?_⟩
            simp only [hWriteDidM, if_neg length, found, callback, if_pos session]
          · have security := shut.resolve_left session
            refine ⟨.securityAccessDenied, fun write => ?_⟩
            simp only [hWriteDidM, if_neg length, found, callback, if_neg session,
              if_pos security]

variable [DidCallbacks ρ ω]

/-- A noted call, and what is done with its answer. -/
theorem run_recordWrite {α : Type} (fn : ω) (s : VecuState ρ ω) (input : List UInt8)
    (next : Int × VecuState ρ ω → StateM (List (ω × List UInt8)) α)
    (calls : List (ω × List UInt8)) :
    (recordWrite fn s input >>= next).run calls =
      (next (DidCallbacks.write fn s input)).run (calls ++ [(fn, input)]) := rfl

/-- Noting the calls changes nothing else. -/
theorem recordedWriteDid_fst (amb : Ambient) (s : VecuState ρ ω) (req : List UInt8) (cap : Nat) :
    (recordedWriteDid s req).1 = hWriteDid amb s req cap := by
  simp only [recordedWriteDid, hWriteDidM, hWriteDid]
  split_ifs with short
  · rfl
  · cases didTableLookup s.dids (join16 (byteAt req 1) (byteAt req 2)) with
    | none => rfl
    | some e =>
        simp only
        cases e.write with
        | none => rfl
        | some fn =>
            simp only
            split_ifs with session security failed
            · rfl
            · rfl
            · rw [run_recordWrite, if_pos failed]
              rfl
            · rw [run_recordWrite, if_neg failed]
              rfl

/-- The outcome of a request that may write, by the return code of the callback. -/
theorem recordedWriteDid_granted
    (grants : MayWrite (didTableLookup s.dids (writtenDid req)) s req fn) :
    recordedWriteDid s req =
      (((DidCallbacks.write fn s (req.drop 3)).2,
          if (DidCallbacks.write fn s (req.drop 3)).1 ≠ 0 then
            .negative (byteAt req 0) .conditionsNotCorrect
          else .positive [udsPosResp (byteAt req 0), byteAt req 1, byteAt req 2] 3),
        [(fn, req.drop 3)]) := by
  rw [recordedWriteDid, hWriteDidM_granted recordWrite grants, run_recordWrite]
  split_ifs <;> rfl

/-- The outcome of a request that may not write. -/
theorem recordedWriteDid_refused
    (none : ¬ ∃ fn, MayWrite (didTableLookup s.dids (writtenDid req)) s req fn) :
    ∃ nrc, recordedWriteDid s req = ((s, .negative (byteAt req 0) nrc), []) := by
  obtain ⟨nrc, refused⟩ := hWriteDidM_refused none
  exact ⟨nrc, by rw [recordedWriteDid, refused recordWrite]; rfl⟩

omit [DidCallbacks ρ ω] in
/-- The entry has one callback. -/
theorem MayWrite.unique {found : Option (DidEntry ρ ω)} {fn' : ω} (first : MayWrite found s req fn)
    (second : MayWrite found s req fn') : fn = fn' := by
  obtain ⟨e, here, callback, -⟩ := first.entry
  obtain ⟨e', here', callback', -⟩ := second.entry
  have same : e = e' := Option.some.inj (here.symm.trans here')
  subst same
  exact Option.some.inj (callback.symm.trans callback')

theorem calls_eq_singleton_iff (s : VecuState ρ ω) (req : List UInt8) (fn : ω)
    (input : List UInt8) :
    (recordedWriteDid s req).2 = [(fn, input)] ↔
      MayWrite (didTableLookup s.dids (writtenDid req)) s req fn ∧ input = req.drop 3 := by
  by_cases some : ∃ fn', MayWrite (didTableLookup s.dids (writtenDid req)) s req fn'
  · obtain ⟨fn', grants⟩ := some
    rw [recordedWriteDid_granted grants]
    simp only [List.cons.injEq, Prod.mk.injEq, and_true]
    constructor
    · rintro ⟨rfl, rfl⟩
      exact ⟨grants, rfl⟩
    · rintro ⟨other, rfl⟩
      exact ⟨grants.unique other, rfl⟩
  · obtain ⟨nrc, refused⟩ := recordedWriteDid_refused some
    rw [refused]
    refine iff_of_false (List.cons_ne_nil _ _).symm ?_
    rintro ⟨grants, -⟩
    exact some ⟨fn, grants⟩

theorem calls_eq_nil_iff (s : VecuState ρ ω) (req : List UInt8) :
    (recordedWriteDid s req).2 = [] ↔
      ¬ ∃ fn, MayWrite (didTableLookup s.dids (writtenDid req)) s req fn := by
  constructor
  · rintro silent ⟨fn, grants⟩
    rw [recordedWriteDid_granted grants] at silent
    exact List.cons_ne_nil _ _ silent
  · intro none
    obtain ⟨nrc, refused⟩ := recordedWriteDid_refused none
    rw [refused]

omit [DidCallbacks ρ ω] in
/-- Of the state, only the session and the unlocked level matter. -/
theorem MayWrite.congr {s' : VecuState ρ ω} {found : Option (DidEntry ρ ω)}
    (session : s.session = s'.session) (security : s.security = s'.security)
    (grants : MayWrite found s req fn) : MayWrite found s' req fn := by
  obtain ⟨e, here, callback, permits⟩ := grants.entry
  refine ⟨grants.long, e, here, callback, ?_, ?_⟩
  · rw [← session]
    exact permits.session
  · rw [← security]
    exact permits.security

/-- States that agree on these two and on the entry of the DID see the same calls. -/
theorem calls_congr {s' : VecuState ρ ω} (session : s.session = s'.session)
    (security : s.security = s'.security)
    (found : didTableLookup s'.dids (writtenDid req) = didTableLookup s.dids (writtenDid req)) :
    (recordedWriteDid s' req).2 = (recordedWriteDid s req).2 := by
  by_cases some : ∃ fn, MayWrite (didTableLookup s.dids (writtenDid req)) s req fn
  · obtain ⟨fn, grants⟩ := some
    have moved := grants.congr session security
    rw [← found] at moved
    rw [recordedWriteDid_granted grants, recordedWriteDid_granted moved]
  · rw [(calls_eq_nil_iff s req).mpr some, calls_eq_nil_iff, found]
    rintro ⟨fn, grants⟩
    exact some ⟨fn, grants.congr session.symm security.symm⟩

/-- The response is positive if the callback was invoked and returned 0. -/
theorem positive_iff (s : VecuState ρ ω) (sid : byteAt req 0 = 0x2E) :
    (recordedWriteDid s req).1.2.rc = 0 ∧ byteAt (recordedWriteDid s req).1.2.resp 0 = 0x6E ↔
      ∃ fn, MayWrite (didTableLookup s.dids (writtenDid req)) s req fn ∧
        (DidCallbacks.write fn s (req.drop 3)).1 = 0 := by
  have negative : ∀ nrc, ¬ byteAt (Reply.negative 0x2E nrc).resp 0 = 0x6E := fun nrc => by
    have first : byteAt (Reply.negative 0x2E nrc).resp 0 = 0x7F := rfl
    rw [first]
    decide
  by_cases some : ∃ fn, MayWrite (didTableLookup s.dids (writtenDid req)) s req fn
  · obtain ⟨fn, grants⟩ := some
    rw [recordedWriteDid_granted grants, sid]
    by_cases zero : (DidCallbacks.write fn s (req.drop 3)).1 = 0
    · rw [if_neg (not_not.mpr zero)]
      exact iff_of_true ⟨rfl, rfl⟩ ⟨fn, grants, zero⟩
    · rw [if_pos zero]
      refine iff_of_false (fun positive => negative _ positive.2) ?_
      rintro ⟨fn', other, zero'⟩
      exact zero (grants.unique other ▸ zero')
  · obtain ⟨nrc, refused⟩ := recordedWriteDid_refused some
    rw [refused, sid]
    refine iff_of_false (fun positive => negative _ positive.2) ?_
    rintro ⟨fn, grants, -⟩
    exact some ⟨fn, grants⟩

end Handler

/-! ## Tables -/

/-- The table after these registrations, in order. -/
def didTableOf (adds : List (DidEntry ρ ω)) : DidTable ρ ω :=
  adds.foldl didTableAdd (didTableInit ρ ω)

/-- The entry that was registered first for a DID, among those that were accepted. -/
def firstRegistered (adds : List (DidEntry ρ ω)) (did : UInt16) : Option (DidEntry ρ ω) :=
  (adds.take didTableMax).find? fun e => e.did = did

section Tables

variable (adds : List (DidEntry ρ ω)) (did : UInt16)

theorem entries_didTableOf : (didTableOf adds).entries = adds.take didTableMax := by
  have stores : adds.foldl (offer didTableMax) (didTableInit ρ ω).entries =
      (adds.foldl didTableAdd (didTableInit ρ ω)).entries :=
    List.foldl_hom DidTable.entries fun t e => (entries_didTableAdd t e).symm
  rw [didTableOf, ← stores]
  exact foldl_offer adds

theorem didTableLookup_didTableOf :
    didTableLookup (didTableOf adds) did = firstRegistered adds did := by
  rw [didTableLookup, entries_didTableOf, firstRegistered]

/-- Registrations behind the first one for a DID are never looked at. -/
theorem firstRegistered_append {e : DidEntry ρ ω} (first : firstRegistered adds did = some e)
    (later : List (DidEntry ρ ω)) : firstRegistered (adds ++ later) did = some e := by
  rw [firstRegistered] at first
  rw [firstRegistered, List.take_append, List.find?_append, first]
  rfl

/-- A full table takes no further entry, and `did_table_add` says so. -/
theorem didTableOf_full (e : DidEntry ρ ω) :
    (didTableAddRc (didTableOf adds) = -1 ↔ didTableMax ≤ adds.length) ∧
      (didTableMax ≤ adds.length → didTableOf (adds ++ [e]) = didTableOf adds) := by
  have length : (didTableOf adds).entries.length = min didTableMax adds.length := by
    rw [entries_didTableOf, List.length_take]
  constructor
  · rw [didTableAddRc]
    split_ifs with room
    · exact iff_of_false (by decide) (by omega)
    · exact iff_of_true rfl (by omega)
  · intro full
    rw [didTableOf, List.foldl_append, List.foldl_cons, List.foldl_nil, ← didTableOf]
    exact dif_neg (by omega)

end Tables

/-- **Only the first entry of a DID decides who may write it.** For every table and every
request with SID `2E`: a write callback is invoked exactly if the request carries a byte to
write and the entry that was registered first has a callback and open gates. It is the callback
of that entry, invoked once and with the bytes behind the DID, and the response is positive
exactly if it returned 0. Entries that are registered later change nothing. -/
theorem write_did_access [DidCallbacks ρ ω] (adds : List (DidEntry ρ ω)) (start : VecuState ρ ω)
    (amb : Ambient) {req : List UInt8} (sid : byteAt req 0 = 0x2E) {cap : Nat} (room : 3 ≤ cap) :
    let s := { start with dids := didTableOf adds }
    let r := recordedWriteDid s req
    let mayWrite := MayWrite (firstRegistered adds (writtenDid req)) s req
    r.1 = udsProcessRequest amb s req cap ∧
      (∀ fn input, r.2 = [(fn, input)] ↔ mayWrite fn ∧ input = req.drop 3) ∧
      (r.2 = [] ↔ ¬ ∃ fn, mayWrite fn) ∧
      (r.1.2.rc = 0 ∧ byteAt r.1.2.resp 0 = 0x6E ↔
        ∃ fn, mayWrite fn ∧ (DidCallbacks.write fn s (req.drop 3)).1 = 0) ∧
      (∀ e later, firstRegistered adds (writtenDid req) = some e →
        (recordedWriteDid { start with dids := didTableOf (adds ++ later) } req).2 = r.2) ∧
      ∀ e, (didTableAddRc (didTableOf adds) = -1 ↔ didTableMax ≤ adds.length) ∧
        (didTableMax ≤ adds.length → didTableOf (adds ++ [e]) = didTableOf adds) := by
  intro s r mayWrite
  have row : udsProcessRequest amb s req cap = hWriteDid amb s req cap :=
    udsProcessRequest_row (u := .writeDataByIdentifier) amb s room sid rfl
  have found : didTableLookup s.dids (writtenDid req) = firstRegistered adds (writtenDid req) :=
    didTableLookup_didTableOf adds (writtenDid req)
  have singleton := calls_eq_singleton_iff s req
  have silent := calls_eq_nil_iff s req
  have positive := positive_iff s sid
  rw [found] at silent positive
  simp only [found] at singleton
  refine ⟨?_, singleton, silent, positive, ?_, didTableOf_full adds⟩
  · rw [row]
    exact recordedWriteDid_fst amb s req cap
  · intro e later first
    refine calls_congr rfl rfl ?_
    rw [found, first]
    exact (didTableLookup_didTableOf _ _).trans (firstRegistered_append adds _ first later)

/-- The owner name behind both gates, and then once more without them. -/
def shadowedDids : List (DidEntry DidReadFn DidWriteFn) :=
  [{ did := 0xF200, write := some .ownerWrite, requiresSecurity := true,
      requiresExtendedSession := true },
    { did := 0xF200, write := some .ownerWrite }]

/-- After boot the gates are closed, and the second entry does not open them. -/
theorem write_did_access_shadowed :
    (recordedWriteDid { vecuInit 0 with dids := didTableOf shadowedDids }
        [0x2E, 0xF2, 0x00, 0x41]).2 = [] := by
  have access := write_did_access shadowedDids (vecuInit 0) ⟨0, 0, none, fun _ => (0, 0)⟩
    (rfl : byteAt [0x2E, 0xF2, 0x00, 0x41] 0 = 0x2E) (by decide : 3 ≤ 3)
  refine access.2.2.1.mpr ?_
  rintro ⟨fn, grants⟩
  obtain ⟨e, found, -, permits⟩ := grants.entry
  have first : firstRegistered shadowedDids (writtenDid [0x2E, 0xF2, 0x00, 0x41]) =
      shadowedDids.head? := by decide
  obtain rfl : shadowedDids.head (by decide) = e := Option.some.inj (first.symm.trans found)
  exact absurd (permits.session rfl) (by decide)

end VecuUds
