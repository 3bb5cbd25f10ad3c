import VecuUds.Client.Tool

/-!
# The write-name command

`cmd_write_name` opens a session, unlocks the ECU, writes the name and reads it back. It can
fail at each of its requests: in a lock-out, with a name that the codec or the ECU refuses, or
because the client was too slow and the S3 timer expired the session between two requests.
`writeNameOutcome` says how the command ends, from the state of the ECU at its start, the name
and the timing alone; the stored name is the new one exactly if the command succeeds.
-/

namespace VecuUds

open Foundation

/-- `VarAsciiCodec(max_len).encode`. -/
def varAsciiEncode (maxLen : Nat) (val : String) : Option (List UInt8) :=
  (asciiEncode val).bind fun b => if b.length > maxLen then none else some b

/-- `read_owner_raw`. -/
def readOwnerRaw (amb : Ambient) : Client String := do
  let raw ← Client.exchange amb [0x22, 0xF2, 0x00]
  if raw.length < 3 ∨ byteAt raw 0 ≠ 0x62 ∨ byteAt raw 1 ≠ 0xF2 ∨ byteAt raw 2 ≠ 0x00 then
    throw .unexpectedResponse
  else return asciiDecode (raw.drop 3)

/-- What the command meets: the readings of its requests, and what happens before each. -/
structure WriteNameWindow where
  unlock : UnlockWindow
  beforeWrite : List ServerInput
  write : Ambient
  beforeRead : List ServerInput
  read : Ambient

/-- `cmd_write_name`, with the name that it prints as confirmed. -/
def cmdWriteName (lib : Udsoncan) (w : WriteNameWindow) (name : String) : Client String := do
  lib.changeSession w.unlock.session udsSessionExtended
  lib.unlockSecurityAccess w.unlock 0x01
  let data ← Client.value (varAsciiEncode 32 name)
  Client.others w.beforeWrite
  lib.writeDataByIdentifier w.write 0xF200 data
  Client.others w.beforeRead
  readOwnerRaw w.read

instance (steps : List ServerInput) (refreshed : UInt64) :
    Decidable (KeepsSession refreshed steps) :=
  inferInstanceAs (Decidable (∀ i ∈ steps, _ → _))

/-- How the unlocking ends. -/
def unlockOutcome (skipsZeroSeed : Bool) (w : UnlockWindow) (t : SecurityState) :
    Except ClientException Unit :=
  if ¬ KeepsSession w.session.now w.beforeSeed then .error (.negativeResponse 0x7F)
  else if t.unlockedLevel = 0 ∧ InLockout t w.seed.now then .error (.negativeResponse 0x37)
  else if t.unlockedLevel ≠ 0 ∧ skipsZeroSeed then .ok ()
  else if ¬ KeepsSession w.session.now w.beforeKey then .error (.negativeResponse 0x7F)
  else if t.unlockedLevel ≠ 0 then .error (.negativeResponse 0x24)
  else .ok ()

/-- How the rest of the command ends, once the ECU is unlocked. -/
def storeOutcome (w : WriteNameWindow) (name : String) : Except ClientException String :=
  match varAsciiEncode 32 name with
  | none => .error .valueError
  | some [] => .error (.negativeResponse 0x13)
  | some (_ :: _) =>
      if KeepsSession w.unlock.session.now w.beforeWrite then .ok name
      else .error (.negativeResponse 0x7F)

/-- How the command ends, for an ECU in this security state. -/
def writeNameOutcome (skipsZeroSeed : Bool) (w : WriteNameWindow) (name : String)
    (t : SecurityState) : Except ClientException String :=
  match unlockOutcome skipsZeroSeed w.unlock t with
  | .ok () => storeOutcome w name
  | .error e => .error e

/-- The stored name after a command that ends in this way: the new one or the old one. -/
def NameStored (outcome : Except ClientException String) (name : String) (old new : OwnerName) :
    Prop :=
  outcome = .ok name ∧ asciiEncode name = some new.content ∨ outcome ≠ .ok name ∧ new = old

/-- A command that ends in this way. -/
def endsIn {α : Type} (outcome : Except ClientException α) (s : EcuState) :
    EStateM.Result ClientException EcuState α :=
  match outcome with
  | .ok a => .ok a s
  | .error e => .error e s

section Names

theorem varAsciiEncode_some {name : String} {data : List UInt8}
    (encoded : varAsciiEncode 32 name = some data) :
    asciiEncode name = some data ∧ data.length ≤ ownerNameCap := by
  obtain ⟨bytes, ascii, fits⟩ := Option.bind_eq_some_iff.mp encoded
  split_ifs at fits with long
  obtain rfl := Option.some.inj fits
  exact ⟨ascii, Nat.not_lt.mp long⟩

end Names

/-- An opened session on an ECU of `vecu_init`, with the stored owner name. -/
structure InSession (refreshed : UInt64) (t : SecurityState) (o : OwnerName) (s : EcuState) : Prop
    extends Opened refreshed t s where
  registered : s.dids = ecuDids
  owner : s.owner = o

section Others

variable {refreshed : UInt64} {t : SecurityState} {o : OwnerName} {s : EcuState}

/-- The other threads leave the table and the owner name alone. -/
theorem others_keep {steps : List ServerInput} (others : NoRequest steps) :
    (run serverStep s steps).dids = s.dids ∧ (run serverStep s steps).owner = s.owner := by
  induction steps generalizing s with
  | nil => exact ⟨rfl, rfl⟩
  | cons i rest ih =>
      obtain ⟨other, others⟩ := List.forall_mem_cons.mp others
      have here : (serverStep s i).1.dids = s.dids ∧ (serverStep s i).1.owner = s.owner := by
        rcases other with s3 | tick
        · simp only [serverStep, s3, s3Iteration]
          split_ifs <;> simp [vecuSetSession]
        · simp [serverStep, tick]
      obtain ⟨dids, owner⟩ := ih others
      rw [run_cons]
      exact ⟨dids.trans here.1, owner.trans here.2⟩

theorem InSession.others (ready : InSession refreshed t o s) {steps : List ServerInput}
    (others : NoRequest steps) (keeps : KeepsSession refreshed steps) :
    InSession refreshed t o (run serverStep s steps) where
  toOpened := ready.toOpened.run others keeps
  registered := (others_keep others).1.trans ready.registered
  owner := (others_keep others).2.trans ready.owner

theorem InSession.withSecurity (ready : InSession refreshed t o s) (t' : SecurityState) :
    InSession refreshed t' o { s with security := t' } :=
  ⟨ready.toOpened.withSecurity t', ready.registered, ready.owner⟩

end Others

section Requests

variable {lib : Udsoncan} {refreshed : UInt64} {t : SecurityState} {o : OwnerName} {s : EcuState}

theorem changeSession_run (documented : lib.Documented) (s : EcuState) (amb : Ambient) :
    (lib.changeSession amb udsSessionExtended).run s =
      .ok () (vecuSetSession amb.now s udsSessionExtended) :=
  (documented.changeSession amb udsSessionExtended).positive (serverStep_openSession s amb) rfl rfl
    ⟨rfl, rfl⟩

/-- In the default session every security access is refused. -/
theorem serverStep_securityAccess_default (expired : s.session = udsSessionDefault)
    (amb : Ambient) {bytes : List UInt8} (some : bytes ≠ []) :
    serverStep s ⟨.request (0x27 :: bytes), amb⟩ =
      (s, Option.some (.negative 0x27 .serviceNotSupportedInSession)) := by
  have gate : ¬ isExtendedSession s = true := by
    rw [isExtendedSession, expired]
    decide
  have long : ¬ (0x27 :: bytes).length < 2 := by
    have := List.length_pos_iff.mpr some
    rw [List.length_cons]
    omega
  have row : udsProcessRequest amb s (0x27 :: bytes) udsMaxMsgLen =
      hSecurityAccess amb s (0x27 :: bytes) udsMaxMsgLen :=
    udsProcessRequest_securityAccess amb s rfl
  simp only [serverStep, row, hSecurityAccess, if_neg long, if_pos gate]
  rfl

theorem requestSeed_expired (documented : lib.Documented)
    (expired : s.session = udsSessionDefault) (amb : Ambient) :
    (lib.requestSeed amb 0x01).run s = .error (.negativeResponse 0x7F) s :=
  (documented.requestSeed amb).negative
    (serverStep_securityAccess_default expired amb (List.cons_ne_nil _ _)) rfl

theorem sendKey_expired (documented : lib.Documented) (expired : s.session = udsSessionDefault)
    (amb : Ambient) (key : List UInt8) :
    (lib.sendKey amb 0x01 key).run s = .error (.negativeResponse 0x7F) s :=
  (documented.sendKey amb key).negative
    (serverStep_securityAccess_default expired amb (List.cons_ne_nil _ _)) rfl

/-- The seed request to an unlocked ECU. -/
theorem requestSeed_unlocked (documented : lib.Documented) (ready : InSession refreshed t o s)
    (amb : Ambient) (unlocked : t.unlockedLevel ≠ 0) :
    ∃ s', (lib.requestSeed amb 0x01).run s = .ok (split32 0) s' ∧
      InSession refreshed { t with seedIssued := false } o s' := by
  have level : t.unlockedLevel ≥ 0x01 := by
    have positive : t.unlockedLevel.toNat ≠ 0 := fun zero => unlocked (UInt8.toNat_inj.mp zero)
    exact UInt8.le_iff_toNat_le.mpr (Nat.one_le_iff_ne_zero.mpr positive)
  have answer : securityRequestSeed amb.now amb.entropy t 0x01 =
      ({ t with seedIssued := false }, .alreadyUnlocked) := by
    simp [securityRequestSeed, levelSupported, level]
  have step := @serverStep_requestSeed s amb ready.extended
  rw [ready.security, answer] at step
  exact ⟨_, (documented.requestSeed amb).positive step rfl rfl ⟨rfl, rfl⟩, ready.withSecurity _⟩

/-- The seed request to a locked ECU in a lock-out. -/
theorem requestSeed_lockedOut (documented : lib.Documented) (ready : InSession refreshed t o s)
    (amb : Ambient) (locked : t.unlockedLevel = 0) (early : InLockout t amb.now) :
    ∃ s', (lib.requestSeed amb 0x01).run s = .error (.negativeResponse 0x37) s' ∧
      s'.owner = o := by
  have answer : securityRequestSeed amb.now amb.entropy t 0x01 =
      (t, .refused .requiredTimeDelayNotExpired) := by
    simp [securityRequestSeed, levelSupported, locked, early.1, early.2]
  have step := @serverStep_requestSeed s amb ready.extended
  rw [ready.security, answer] at step
  exact ⟨_, (documented.requestSeed amb).negative step rfl, ready.owner⟩

/-- The seed request to a locked ECU outside a lock-out. -/
theorem requestSeed_locked (documented : lib.Documented) (ready : InSession refreshed t o s)
    (amb : Ambient) (locked : t.unlockedLevel = 0) (clear : ¬ InLockout t amb.now) :
    ∃ s' fails, (lib.requestSeed amb 0x01).run s = .ok (split32 (drawSeed amb.entropy)) s' ∧
      InSession refreshed ⟨0, drawSeed amb.entropy, true, fails, 0⟩ o s' := by
  obtain ⟨fails, answer⟩ := securityRequestSeed_locked amb.entropy locked clear
  have step := @serverStep_requestSeed s amb ready.extended
  rw [ready.security, answer] at step
  exact ⟨_, fails, (documented.requestSeed amb).positive step rfl rfl ⟨rfl, rfl⟩,
    ready.withSecurity _⟩

/-- A key that no seed was issued for. -/
theorem sendKey_unissued (documented : lib.Documented) (ready : InSession refreshed t o s)
    (amb : Ambient) (unissued : t.seedIssued = false) (key : UInt32) :
    ∃ s', (lib.sendKey amb 0x01 (split32 key)).run s = .error (.negativeResponse 0x24) s' ∧
      s'.owner = o := by
  have answer : securitySendKey amb.now amb.later t 0x01 key =
      (t, .error .requestSequenceError) := by
    simp [securitySendKey, levelSupported, unissued]
  have step := serverStep_sendKey_split32 ready.extended amb key
  rw [ready.security, answer] at step
  exact ⟨_, (documented.sendKey amb _).negative step rfl, ready.owner⟩

/-- The expected key. -/
theorem sendKey_right (documented : lib.Documented) {seed : UInt32} {fails : UInt8}
    (ready : InSession refreshed ⟨0, seed, true, fails, 0⟩ o s) (amb : Ambient) :
    ∃ s', (lib.sendKey amb 0x01 (split32 (seed ^^^ securityKeyConstant))).run s = .ok () s' ∧
      InSession refreshed ⟨1, seed, false, 0, 0⟩ o s' := by
  have answer : securitySendKey amb.now amb.later ⟨0, seed, true, fails, 0⟩ 0x01
      (seed ^^^ securityKeyConstant) = (⟨1, seed, false, 0, 0⟩, .ok ()) := by
    simp [securitySendKey, levelSupported]
  have step := serverStep_sendKey_split32 ready.extended amb (seed ^^^ securityKeyConstant)
  rw [ready.security, answer] at step
  exact ⟨_, (documented.sendKey amb _).positive step rfl rfl rfl, ready.withSecurity _⟩

end Requests

/-! ## Unlocking -/

section Unlocking

variable {lib : Udsoncan} {w : UnlockWindow} {t : SecurityState} {o : OwnerName} {s : EcuState}

theorem allZero_split32 {v : UInt32} : allZero (split32 v) = true ↔ v = 0 := by
  constructor
  · intro zeros
    have bytes : ∀ b ∈ split32 v, b = 0 := by simpa [allZero] using zeros
    refine split32_inj (w := 0) ?_
    exact List.eq_replicate_of_mem bytes
  · rintro rfl
    rfl

/-- The answer to a seed, up to the key request. -/
theorem answerSeed_split32 (lib : Udsoncan) (w : UnlockWindow) (seed : UInt32) (s : EcuState) :
    (lib.answerSeed w 0x01 (split32 seed)).run s =
      (lib.sendKey w.key 0x01 (split32 (seed ^^^ securityKeyConstant))).run
        (run serverStep s w.beforeKey) := by
  have value : (Client.value (some (split32 (seed ^^^ securityKeyConstant)))).run s =
      .ok (split32 (seed ^^^ securityKeyConstant)) s := rfl
  rw [Udsoncan.answerSeed, securityAlgo_split32, Client.bind_ok value,
    Client.bind_ok (Client.others_run _ _)]

/-- A client that is too slow with its key. -/
theorem answerSeed_expired (documented : lib.Documented) (ready : InSession w.session.now t o s)
    (alone : NoRequest w.beforeKey) (slow : ¬ KeepsSession w.session.now w.beforeKey)
    (seed : UInt32) :
    ∃ s', (lib.answerSeed w 0x01 (split32 seed)).run s = .error (.negativeResponse 0x7F) s' ∧
      s'.owner = o := by
  have expired := ready.toOpened.expired alone slow
  refine ⟨run serverStep s w.beforeKey, ?_, (others_keep alone).2.trans ready.owner⟩
  rw [answerSeed_split32]
  exact sendKey_expired documented expired w.key _

/-- How the unlocking ends, and what a client that goes on may rely on. -/
theorem unlockSecurityAccess_run (documented : lib.Documented)
    (ready : InSession w.session.now t o s) (aloneBeforeSeed : NoRequest w.beforeSeed)
    (aloneBeforeKey : NoRequest w.beforeKey) :
    ∃ s', (lib.unlockSecurityAccess w 0x01).run s =
        endsIn (unlockOutcome lib.skipsZeroSeed w t) s' ∧
      s'.owner = o ∧ (unlockOutcome lib.skipsZeroSeed w t = .ok () →
        ∃ t', InSession w.session.now t' o s' ∧ 1 ≤ t'.unlockedLevel) := by
  rw [documented.unlockSecurityAccess, Udsoncan.seedAndKey,
    Client.bind_ok (Client.others_run _ _), unlockOutcome]
  by_cases aliveBeforeSeed : KeepsSession w.session.now w.beforeSeed
  swap
  · have expired := ready.toOpened.expired aloneBeforeSeed aliveBeforeSeed
    rw [Client.bind_error (requestSeed_expired documented expired w.seed),
      if_pos aliveBeforeSeed]
    exact ⟨_, rfl, (others_keep aloneBeforeSeed).2.trans ready.owner, nofun⟩
  rw [if_neg (not_not.mpr aliveBeforeSeed)]
  have asking := ready.others aloneBeforeSeed aliveBeforeSeed
  by_cases locked : t.unlockedLevel = 0
  · by_cases early : InLockout t w.seed.now
    · obtain ⟨s', raised, owner⟩ := requestSeed_lockedOut documented asking w.seed locked early
      rw [Client.bind_error raised, if_pos ⟨locked, early⟩]
      exact ⟨s', rfl, owner, nofun⟩
    obtain ⟨s₁, fails, answered, asked⟩ :=
      requestSeed_locked documented asking w.seed locked early
    have challenge : ¬ (lib.skipsZeroSeed = true ∧
        allZero (split32 (drawSeed w.seed.entropy)) = true) :=
      fun zero => drawSeed_ne_zero _ (allZero_split32.mp zero.2)
    rw [Client.bind_ok answered]
    simp only [if_neg challenge, early, locked, and_false, ne_eq, not_true_eq_false,
      false_and, if_false]
    by_cases aliveBeforeKey : KeepsSession w.session.now w.beforeKey
    · obtain ⟨s₂, accepted, unlocked⟩ :=
        sendKey_right documented (asked.others aloneBeforeKey aliveBeforeKey) w.key
      rw [answerSeed_split32, accepted, if_neg (not_not.mpr aliveBeforeKey)]
      exact ⟨s₂, rfl, unlocked.owner, fun _ => ⟨_, unlocked, UInt8.le_refl _⟩⟩
    · obtain ⟨s₂, raised, owner⟩ := answerSeed_expired documented asked aloneBeforeKey
        aliveBeforeKey (drawSeed w.seed.entropy)
      rw [raised, if_pos aliveBeforeKey]
      exact ⟨s₂, rfl, owner, nofun⟩
  · obtain ⟨s₁, answered, asked⟩ := requestSeed_unlocked documented asking w.seed locked
    have level : 1 ≤ t.unlockedLevel := by
      have positive : t.unlockedLevel.toNat ≠ 0 := fun zero => locked (UInt8.toNat_inj.mp zero)
      exact UInt8.le_iff_toNat_le.mpr (Nat.one_le_iff_ne_zero.mpr positive)
    have zeros : allZero (split32 0) = true := rfl
    rw [Client.bind_ok answered]
    simp only [locked, false_and, if_false, ne_eq, not_false_eq_true, true_and, if_true]
    cases lib.skipsZeroSeed with
    | true =>
        rw [if_pos ⟨rfl, zeros⟩, if_pos rfl]
        exact ⟨s₁, rfl, asked.owner, fun _ => ⟨_, asked, level⟩⟩
    | false =>
        have sends : ¬ (false = true ∧ allZero (split32 0) = true) := fun both => by cases both.1
        rw [if_neg sends, if_neg Bool.false_ne_true]
        by_cases aliveBeforeKey : KeepsSession w.session.now w.beforeKey
        · obtain ⟨s₂, raised, owner⟩ := sendKey_unissued documented
            (asked.others aloneBeforeKey aliveBeforeKey) w.key rfl (0 ^^^ securityKeyConstant)
          rw [answerSeed_split32, raised, if_neg (not_not.mpr aliveBeforeKey)]
          exact ⟨s₂, rfl, owner, nofun⟩
        · obtain ⟨s₂, raised, owner⟩ := answerSeed_expired documented asked aloneBeforeKey
            aliveBeforeKey 0
          rw [raised, if_pos aliveBeforeKey]
          exact ⟨s₂, rfl, owner, nofun⟩

end Unlocking

/-! ## Writing and reading back -/

section Writing

variable {lib : Udsoncan} {refreshed : UInt64} {t : SecurityState} {o : OwnerName} {s : EcuState}

theorem serverStep_writeOwner (s : EcuState) (amb : Ambient) (data : List UInt8) :
    serverStep s ⟨.request ([0x2E, 0xF2, 0x00] ++ data), amb⟩ =
      ((hWriteDid amb s ([0x2E, 0xF2, 0x00] ++ data) udsMaxMsgLen).1,
        some (hWriteDid amb s ([0x2E, 0xF2, 0x00] ++ data) udsMaxMsgLen).2) := by
  have row : udsProcessRequest amb s ([0x2E, 0xF2, 0x00] ++ data) udsMaxMsgLen =
      hWriteDid amb s ([0x2E, 0xF2, 0x00] ++ data) udsMaxMsgLen :=
    udsProcessRequest_row (u := .writeDataByIdentifier) amb s three_le_udsMaxMsgLen rfl rfl
  simp only [serverStep, row]

theorem write_empty (documented : lib.Documented) (s : EcuState) (amb : Ambient) :
    (lib.writeDataByIdentifier amb 0xF200 []).run s = .error (.negativeResponse 0x13) s :=
  (documented.writeDataByIdentifier amb 0xF200 []).negative (serverStep_writeOwner s amb []) rfl

/-- In the default session every write is refused. -/
theorem write_expired (documented : lib.Documented) (registered : s.dids = ecuDids)
    (expired : s.session = udsSessionDefault) (amb : Ambient) {data : List UInt8}
    (nonempty : data ≠ []) :
    (lib.writeDataByIdentifier amb 0xF200 data).run s = .error (.negativeResponse 0x7F) s := by
  have gate : ¬ isExtendedSession s = true := by
    rw [isExtendedSession, expired]
    decide
  have step := serverStep_writeOwner s amb data
  rw [hWriteDid_owner registered amb nonempty, if_pos gate] at step
  exact (documented.writeDataByIdentifier amb 0xF200 data).negative step rfl

/-- In an unlocked session a name that fits is stored. -/
theorem write_unlocked (documented : lib.Documented) (ready : InSession refreshed t o s)
    (unlocked : 1 ≤ t.unlockedLevel) (amb : Ambient) {data : List UInt8} (nonempty : data ≠ [])
    (fits : data.length ≤ ownerNameCap) :
    ∃ s', (lib.writeDataByIdentifier amb 0xF200 data).run s = .ok () s' ∧ s'.dids = ecuDids ∧
      s'.owner.content = data := by
  have level : securityIsUnlocked s.security 0x01 = true := by
    rw [ready.security]
    exact decide_eq_true unlocked
  have step := serverStep_writeOwner s amb data
  rw [hWriteDid_owner ready.registered amb nonempty, if_neg (not_not.mpr ready.extended),
    if_neg (not_not.mpr level), dif_pos fits] at step
  exact ⟨_, (documented.writeDataByIdentifier amb 0xF200 data).positive step rfl rfl rfl,
    ready.registered, OwnerName.content_store _ _ _⟩

/-- Reading the name back never fails. -/
theorem readOwnerRaw_run (registered : s.dids = ecuDids) (amb : Ambient) :
    (readOwnerRaw amb).run s = .ok (asciiDecode s.owner.content) s := by
  obtain ⟨raw, shape⟩ : ∃ raw : List UInt8,
      raw = ([0x62, 0xF2, 0x00] : List UInt8) ++ s.owner.content := ⟨_, rfl⟩
  have step : serverStep s ⟨.request [0x22, 0xF2, 0x00], amb⟩ =
      (s, some (.positive raw (3 + s.owner.content.length))) := by
    have answered := read_owner amb registered (by decide : 35 ≤ udsMaxMsgLen)
    simp only [serverStep, answered, shape]
  have received : (Client.exchange amb [0x22, 0xF2, 0x00]).run s = .ok raw s :=
    Client.exchange_run step
  have expected : ¬ (raw.length < 3 ∨ byteAt raw 0 ≠ 0x62 ∨ byteAt raw 1 ≠ 0xF2 ∨
      byteAt raw 2 ≠ 0x00) := by
    rw [shape]
    rintro (short | other | other | other)
    · simp only [List.length_append, List.length_cons] at short
      omega
    · exact other rfl
    · exact other rfl
    · exact other rfl
  have rest : raw.drop 3 = s.owner.content := by
    rw [shape]
    rfl
  rw [readOwnerRaw, Client.bind_ok received, if_neg expected, rest]
  rfl

theorem NameStored.raised {name : String} (e : ClientException) {old new : OwnerName}
    (same : new = old) : NameStored (.error e) name old new :=
  .inr ⟨nofun, same⟩

/-- The rest of the command, from an unlocked session. -/
theorem storeName_run {w : WriteNameWindow} (documented : lib.Documented)
    (ready : InSession w.unlock.session.now t o s) (unlocked : 1 ≤ t.unlockedLevel) (name : String)
    (aloneBeforeWrite : NoRequest w.beforeWrite) (aloneBeforeRead : NoRequest w.beforeRead) :
    ∃ s', (do
        let data ← Client.value (varAsciiEncode 32 name)
        Client.others w.beforeWrite
        lib.writeDataByIdentifier w.write 0xF200 data
        Client.others w.beforeRead
        readOwnerRaw w.read).run s = endsIn (storeOutcome w name) s' ∧
      NameStored (storeOutcome w name) name o s'.owner := by
  rw [storeOutcome]
  cases encoded : varAsciiEncode 32 name with
  | none => exact ⟨s, rfl, .raised _ ready.owner⟩
  | some data =>
      have value : (Client.value (some data)).run s = .ok data s := rfl
      have table := (others_keep aloneBeforeWrite (s := s)).1.trans ready.registered
      have owner := (others_keep aloneBeforeWrite (s := s)).2.trans ready.owner
      rw [Client.bind_ok value, Client.bind_ok (Client.others_run _ _)]
      cases data with
      | nil =>
          rw [Client.bind_error (write_empty documented _ _)]
          exact ⟨_, rfl, .raised _ owner⟩
      | cons first rest =>
          have nonempty : first :: rest ≠ [] := List.cons_ne_nil _ _
          by_cases alive : KeepsSession w.unlock.session.now w.beforeWrite
          · obtain ⟨ascii, fits⟩ := varAsciiEncode_some encoded
            obtain ⟨s₁, written, registered, stored⟩ :=
              write_unlocked documented (ready.others aloneBeforeWrite alive) unlocked w.write
                nonempty fits
            have kept := others_keep aloneBeforeRead (s := s₁)
            have content : (run serverStep s₁ w.beforeRead).owner.content = first :: rest := by
              rw [kept.2, stored]
            have confirmed := readOwnerRaw_run (kept.1.trans registered) w.read
            rw [content, asciiDecode_asciiEncode ascii] at confirmed
            refine ⟨run serverStep s₁ w.beforeRead, ?_, .inl ⟨if_pos alive, ?_⟩⟩
            · rw [Client.bind_ok written, Client.bind_ok (Client.others_run _ _), confirmed]
              simp only [if_pos alive]
              rfl
            · rw [content]
              exact ascii
          · have expired := ready.toOpened.expired aloneBeforeWrite alive
            rw [Client.bind_error (write_expired documented table expired w.write nonempty)]
            simp only [if_neg alive]
            exact ⟨_, rfl, .raised _ owner⟩

end Writing

/-- **How the write-name command ends.** Whatever the run before it, and whatever engine ticks
and complete iterations of the S3 thread lie between its requests: the command ends as
`writeNameOutcome` says. It confirms the name that it was given, and that name is stored, or it
raises and the stored name is the old one. -/
theorem write_name_exact {lib : Udsoncan} (documented : lib.Documented) (boot : UInt64)
    (past : List ServerInput) (w : WriteNameWindow) (name : String)
    (aloneBeforeSeed : NoRequest w.unlock.beforeSeed)
    (aloneBeforeKey : NoRequest w.unlock.beforeKey)
    (aloneBeforeWrite : NoRequest w.beforeWrite) (aloneBeforeRead : NoRequest w.beforeRead) :
    let s := serverRun boot past
    let outcome := writeNameOutcome lib.skipsZeroSeed w name s.security
    ∃ s', (cmdWriteName lib w name).run s = endsIn outcome s' ∧
      NameStored outcome name s.owner s'.owner := by
  intro s
  have ready : InSession w.unlock.session.now s.security s.owner
      (vecuSetSession w.unlock.session.now s udsSessionExtended) :=
    ⟨⟨rfl, rfl, rfl⟩, serverRun_dids boot past, rfl⟩
  obtain ⟨s₁, unlocking, owner, succeeds⟩ := unlockSecurityAccess_run documented ready
    aloneBeforeSeed aloneBeforeKey
  rw [cmdWriteName, Client.bind_ok (changeSession_run documented s w.unlock.session),
    writeNameOutcome]
  cases unlocks : unlockOutcome lib.skipsZeroSeed w.unlock s.security with
  | error e =>
      rw [unlocks] at unlocking
      rw [Client.bind_error unlocking]
      exact ⟨s₁, rfl, .raised e owner⟩
  | ok value =>
      obtain ⟨t, opened, unlocked⟩ := succeeds unlocks
      rw [unlocks] at unlocking
      rw [Client.bind_ok unlocking]
      exact storeName_run documented opened unlocked name aloneBeforeWrite aloneBeforeRead

/-- The command at clock reading `t`, with no step of another thread in between. -/
def WriteNameWindow.still (t : UInt64) : WriteNameWindow := ⟨.still t, [], .still t, [], .still t⟩

theorem write_name_exact_after_boot :
    let outcome := writeNameOutcome true (.still 0) "WASSIM" (serverRun 0 []).security
    ∃ s', (cmdWriteName (.plain true) (.still 0) "WASSIM").run (serverRun 0 []) =
        endsIn outcome s' ∧
      NameStored outcome "WASSIM" (serverRun 0 []).owner s'.owner :=
  write_name_exact (Udsoncan.plain_documented true) 0 [] (.still 0) "WASSIM" noRequest_nil
    noRequest_nil noRequest_nil noRequest_nil

/-- **The tool identifies the ECU.** At every point of every run `cmd_read_vin` and
`cmd_read_serial` print the same lines, `read_owner_raw` returns the name that the log has, with
what is not ASCII replaced, and none of them changes the ECU. -/
theorem tool_identifies_ecu {lib : Udsoncan} (documented : lib.Documented) (boot : UInt64)
    (past : List ServerInput) (amb : Ambient) :
    let s := serverRun boot past
    (cmdReadVin lib amb).run s = .ok "VIN: VF1234567890ABCDE" s ∧
      (cmdReadSerial lib amb).run s = .ok "Serial: ECU-DEMO-001" s ∧
      (readOwnerRaw amb).run s =
        .ok (asciiDecode (logbook boot (serverTrace boot past)).owner) s := by
  intro s
  have describes := logbook_describes boot past
  have vin : asciiEncode "VF1234567890ABCDE" = some (vinData.take 17) := by decide
  have serial : asciiEncode "ECU-DEMO-001" = some (serialData.take 12) := by decide
  refine ⟨?_, ?_, ?_⟩
  · exact describes.cmdReadText documented amb "VIN: " rfl rfl vin
  · exact describes.cmdReadText documented amb "Serial: " rfl rfl serial
  · rw [← describes.owner]
    exact readOwnerRaw_run (serverRun_dids boot past) amb

theorem tool_identifies_ecu_after_boot :
    (cmdReadVin (.plain true) (.still 0)).run (serverRun 0 []) =
        .ok "VIN: VF1234567890ABCDE" (serverRun 0 []) ∧
      (cmdReadSerial (.plain true) (.still 0)).run (serverRun 0 []) =
        .ok "Serial: ECU-DEMO-001" (serverRun 0 []) ∧
      (readOwnerRaw (.still 0)).run (serverRun 0 []) =
        .ok (asciiDecode (logbook 0 (serverTrace 0 [])).owner) (serverRun 0 []) :=
  tool_identifies_ecu (Udsoncan.plain_documented true) 0 [] (.still 0)

end VecuUds
