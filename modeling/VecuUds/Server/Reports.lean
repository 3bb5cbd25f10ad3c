import VecuUds.Server.Logbook

/-!
# What the ECU answers, read off the log

The log of a run decides how the ECU answers: which bytes a data identifier carries, whether a
write of the owner name is acknowledged and with which code it is refused otherwise, and which
trouble codes are reported. The prediction is a function of the log and the request; nothing
else in the ECU has a say.
-/

namespace VecuUds

open Foundation

/-! ## Data identifiers -/

/-- The data of an identifier. -/
def Logbook.data (b : Logbook) (did : UInt16) : Option (List UInt8) :=
  if did = 0xF190 then some (vinData.take 17)
  else if did = 0xF18C then some (serialData.take 12)
  else if did = 0xF187 then some (spareData.take 8)
  else if did = 0x010C then some (digitsBig 2 b.engine.1.toNat)
  else if did = 0x010D then some [b.engine.2]
  else if did = 0x0105 then some [UInt8.ofNat (coolantAfter b.ticks + 40)]
  else if did = 0xF200 then some b.owner
  else none

/-- The answer to a request that reads one identifier. -/
def Logbook.readAnswer (b : Logbook) (hi lo : UInt8) : Reply :=
  match b.data (join16 hi lo) with
  | some data => .positive ([0x62, hi, lo] ++ data) (3 + data.length)
  | none => .negative 0x22 .requestOutOfRange

section Reading

variable {b : Logbook} {s : EcuState}

/-- The table of `vecu_init`, row by row. -/
theorem entries_ecuDids : ecuDids.entries =
    [{ did := 0xF190, staticData := some vinData, staticLen := 17 },
      { did := 0xF18C, staticData := some serialData, staticLen := 12 },
      { did := 0xF187, staticData := some spareData, staticLen := 8 },
      { did := 0x010C, read := some .appReadRpm },
      { did := 0x010D, read := some .appReadSpeed },
      { did := 0x0105, read := some .appReadCoolant },
      { did := 0xF200, read := some .ownerRead, write := some .ownerWrite,
        requiresSecurity := true, requiresExtendedSession := true }] := rfl

theorem rpm_bytes (rpm : UInt16) :
    [(rpm >>> 8).toUInt8, (rpm &&& 0xFF).toUInt8] = digitsBig 2 rpm.toNat := by
  have masked : (rpm &&& 0xFF).toNat = rpm.toNat % 2 ^ 8 := Nat.and_two_pow_sub_one_eq_mod _ 8
  have digits : digitsBig 2 rpm.toNat = [UInt8.ofNat (rpm.toNat / 256), UInt8.ofNat rpm.toNat] :=
    rfl
  have high : (rpm >>> 8).toUInt8 = UInt8.ofNat (rpm.toNat / 256) := by
    apply UInt8.toNat_inj.mp
    rw [UInt16.toNat_toUInt8, UInt16.toNat_shiftRight, UInt8.toNat_ofNat',
      Nat.shiftRight_eq_div_pow]
    rfl
  have low : (rpm &&& 0xFF).toUInt8 = UInt8.ofNat rpm.toNat := by
    apply UInt8.toNat_inj.mp
    rw [UInt16.toNat_toUInt8, masked, UInt8.toNat_ofNat', Nat.mod_mod]
  rw [digits, high, low]

theorem coolant_byte {a : AppEngine} {ticks : Nat}
    (known : a.coolantC.toNat = coolantAfter ticks) :
    appReadCoolant a 256 = some [UInt8.ofNat (coolantAfter ticks + 40)] := by
  have warm : coolantAfter ticks ≤ 92 := Nat.min_le_left _ _
  have low : ¬ ((coolantAfter ticks : Int) + 40 < 0) := by omega
  have high : ¬ ((coolantAfter ticks : Int) + 40 > 255) := by omega
  have shifted : ((coolantAfter ticks : Int) + 40).toNat = coolantAfter ticks + 40 := by omega
  simp only [appReadCoolant, known, if_neg low, if_neg high, shifted]
  rfl

/-- A registered identifier carries what the log says, and no other is registered. -/
theorem Describes.data (describes : Describes b s) (did : UInt16) :
    (didTableLookup ecuDids did).map (didPayload s) = (b.data did).map DidPayload.bytes := by
  have rpm : appReadRpm s.app 256 = some (digitsBig 2 b.engine.1.toNat) := by
    rw [← describes.engine, ← rpm_bytes]
    rfl
  have speed : appReadSpeed s.app 256 = some [b.engine.2] := by
    rw [← describes.engine]
    rfl
  have coolant := coolant_byte describes.coolant
  have owner : ownerRead s.owner 256 = some b.owner := by
    rw [ownerRead_eq, describes.owner]
  simp only [didTableLookup, entries_ecuDids, List.find?_cons, Logbook.data, @eq_comm _ did]
  split_ifs with vin serial spare engine speedometer thermometer name
  · simp [vin, didPayload]
  · simp [vin, serial, didPayload]
  · simp [vin, serial, spare, didPayload]
  · simp [vin, serial, spare, engine, didPayload, DidCallbacks.read, rpm]
  · simp [vin, serial, spare, engine, speedometer, didPayload, DidCallbacks.read, speed]
  · simp [vin, serial, spare, engine, speedometer, thermometer, didPayload, DidCallbacks.read,
      coolant]
  · simp [vin, serial, spare, engine, speedometer, thermometer, name, didPayload,
      DidCallbacks.read, owner]
  · simp [vin, serial, spare, engine, speedometer, thermometer, name]

/-- Every payload fits the answer. -/
theorem Describes.data_length (describes : Describes b s) {did : UInt16} {data : List UInt8}
    (known : b.data did = some data) : data.length ≤ 256 := by
  have payload := describes.data did
  rw [known] at payload
  obtain ⟨e, found, collected⟩ := Option.map_eq_some_iff.mp payload
  have member : e ∈ ecuDids.entries := List.mem_of_find?_eq_some found
  obtain ⟨bytes, same, short⟩ := didPayload_ecuDids (s := s) member
  obtain rfl := DidPayload.bytes.inj (collected.symm.trans same)
  exact short

theorem Describes.read (describes : Describes b s) (amb : Ambient) (hi lo : UInt8) :
    udsProcessRequest amb s [0x22, hi, lo] udsMaxMsgLen = (s, b.readAnswer hi lo) := by
  have row : udsProcessRequest amb s [0x22, hi, lo] udsMaxMsgLen =
      hReadDid amb s [0x22, hi, lo] udsMaxMsgLen :=
    udsProcessRequest_row (u := .readDataByIdentifier) amb s three_le_udsMaxMsgLen rfl rfl
  have triple : ¬ [0x22, hi, lo].length ≠ 3 := not_not.mpr rfl
  have first : byteAt [0x22, hi, lo] 1 = hi := rfl
  have second : byteAt [0x22, hi, lo] 2 = lo := rfl
  have payload := describes.data (join16 hi lo)
  simp only [row, hReadDid, if_neg triple, first, second, describes.registered, join16_high,
    join16_low, Logbook.readAnswer]
  cases known : b.data (join16 hi lo) with
  | none =>
      rw [known, Option.map_none, Option.map_eq_none_iff] at payload
      rw [payload]
      rfl
  | some data =>
      rw [known, Option.map_some] at payload
      obtain ⟨e, found, collected⟩ := Option.map_eq_some_iff.mp payload
      have short := describes.data_length known
      have fits : ¬ udsMaxMsgLen < 3 + data.length := by
        change ¬ 4095 < _
        omega
      simp only [found, collected, if_neg fits]
      rfl

end Reading

/-- **Reading data reports the log.** At every point of every run, a request for one identifier,
known or not, is answered with what the log says about it and changes nothing: the fixed
identification data, the engine's last wave, the temperature after so many ticks, the last
acknowledged owner name, and otherwise that the identifier is unknown. -/
theorem read_did_reports_log (boot : UInt64) (past : List ServerInput) (amb : Ambient)
    (hi lo : UInt8) :
    udsProcessRequest amb (serverRun boot past) [0x22, hi, lo] udsMaxMsgLen =
      (serverRun boot past, (logbook boot (serverTrace boot past)).readAnswer hi lo) :=
  (logbook_describes boot past).read amb hi lo

/-! ## Writing the owner name -/

/-- The answer to a request that writes an identifier. -/
def Logbook.writeAnswer (b : Logbook) (hi lo : UInt8) (data : List UInt8) : Reply :=
  if data = [] then .negative 0x2E .incorrectMessageLength
  else if ¬ (hi = 0xF2 ∧ lo = 0x00) then .negative 0x2E .requestOutOfRange
  else if b.session ≠ udsSessionExtended ∧ b.session ≠ udsSessionProgramming then
    .negative 0x2E .serviceNotSupportedInSession
  else if ¬ b.unlocked then .negative 0x2E .securityAccessDenied
  else if data.length ≤ ownerNameCap then .positive [0x6E, 0xF2, 0x00] 3
  else .negative 0x2E .conditionsNotCorrect

section Writing

variable {b : Logbook} {s : EcuState}

theorem join16_owner_iff {hi lo : UInt8} : join16 hi lo = 0xF200 ↔ hi = 0xF2 ∧ lo = 0x00 := by
  constructor
  · intro same
    have spelled : join16 hi lo = join16 0xF2 0x00 := same
    exact join16_inj spelled
  · rintro ⟨rfl, rfl⟩
    rfl

/-- A write request to an identifier that has no write callback. -/
theorem hWriteDid_unwritable (registered : s.dids = ecuDids) (amb : Ambient) {hi lo : UInt8}
    {data : List UInt8} (nonempty : data ≠ []) (other : ¬ (hi = 0xF2 ∧ lo = 0x00)) :
    (hWriteDid amb s ([0x2E, hi, lo] ++ data) udsMaxMsgLen).2 =
      .negative 0x2E .requestOutOfRange := by
  have long : ¬ ([0x2E, hi, lo] ++ data).length < 4 := by
    have positive := List.length_pos_iff.mpr nonempty
    simp only [List.length_append, List.length_cons, List.length_nil]
    omega
  have first : byteAt ([0x2E, hi, lo] ++ data) 1 = hi := rfl
  have second : byteAt ([0x2E, hi, lo] ++ data) 2 = lo := rfl
  simp only [hWriteDid, if_neg long, first, second, registered]
  cases found : didTableLookup ecuDids (join16 hi lo) with
  | none => rfl
  | some e =>
      cases writable : e.write with
      | none => simp only [writable]; rfl
      | some fn =>
          obtain ⟨did, -⟩ := ecuDids_writable (List.mem_of_find?_eq_some found) writable
          have matched : e.did = join16 hi lo := by
            rw [didTableLookup] at found
            simpa using List.find?_some found
          exact absurd (join16_owner_iff.mp (matched.symm.trans did)) other

/-- A write request to the owner name, and what it leaves. -/
theorem hWriteDid_owner (registered : s.dids = ecuDids) (amb : Ambient) {data : List UInt8}
    (nonempty : data ≠ []) :
    hWriteDid amb s ([0x2E, 0xF2, 0x00] ++ data) udsMaxMsgLen =
      if ¬ isExtendedSession s then (s, .negative 0x2E .serviceNotSupportedInSession)
      else if ¬ securityIsUnlocked s.security 0x01 then (s, .negative 0x2E .securityAccessDenied)
      else if fits : data.length ≤ ownerNameCap then
        ({ s with owner := s.owner.store data fits }, .positive [0x6E, 0xF2, 0x00] 3)
      else (s, .negative 0x2E .conditionsNotCorrect) := by
  have positive := List.length_pos_iff.mpr nonempty
  have long : ¬ ([0x2E, 0xF2, 0x00] ++ data).length < 4 := by
    simp only [List.length_append, List.length_cons, List.length_nil]
    omega
  have did : join16 (byteAt ([0x2E, 0xF2, 0x00] ++ data) 1)
      (byteAt ([0x2E, 0xF2, 0x00] ++ data) 2) = 0xF200 := join16_owner_iff.mpr ⟨rfl, rfl⟩
  have found : didTableLookup s.dids 0xF200 = some
      { did := 0xF200, read := some .ownerRead, write := some .ownerWrite,
        requiresSecurity := true, requiresExtendedSession := true } := by
    rw [registered]
    decide
  have rest : ([0x2E, 0xF2, 0x00] ++ data).drop 3 = data := rfl
  simp only [hWriteDid, if_neg long, did, found, rest, true_and]
  by_cases fits : data.length ≤ ownerNameCap
  · have stored := ownerWrite_stored s.owner (by omega) fits
    simp only [DidCallbacks.write, stored, ne_eq, not_true_eq_false, if_false, dif_pos fits]
    rfl
  · have refused := ownerWrite_refused s.owner (.inr (Nat.not_le.mp fits))
    have failed : (-1 : Int) ≠ 0 := by decide
    simp only [DidCallbacks.write, refused, if_pos failed, dif_neg fits]
    rfl

theorem Describes.write (describes : Describes b s) (amb : Ambient) (hi lo : UInt8)
    (data : List UInt8) :
    (udsProcessRequest amb s ([0x2E, hi, lo] ++ data) udsMaxMsgLen).2 =
      b.writeAnswer hi lo data := by
  have row : udsProcessRequest amb s ([0x2E, hi, lo] ++ data) udsMaxMsgLen =
      hWriteDid amb s ([0x2E, hi, lo] ++ data) udsMaxMsgLen :=
    udsProcessRequest_row (u := .writeDataByIdentifier) amb s three_le_udsMaxMsgLen rfl rfl
  have gate : ¬ isExtendedSession s = true ↔
      b.session ≠ udsSessionExtended ∧ b.session ≠ udsSessionProgramming := by
    simp only [isExtendedSession, describes.session, decide_eq_true_eq]
    tauto
  have unlocked : securityIsUnlocked s.security 0x01 = b.unlocked := by
    rw [securityIsUnlocked, describes.level]
    cases b.unlocked <;> rfl
  rw [row, Logbook.writeAnswer]
  by_cases empty : data = []
  · subst empty
    rfl
  rw [if_neg empty]
  by_cases owner : hi = 0xF2 ∧ lo = 0x00
  · obtain ⟨rfl, rfl⟩ := owner
    rw [if_neg (not_not.mpr ⟨rfl, rfl⟩), hWriteDid_owner describes.registered amb empty]
    simp only [gate, unlocked, apply_ite Prod.snd, apply_dite Prod.snd]
    rfl
  · rw [if_pos owner]
    exact hWriteDid_unwritable describes.registered amb empty owner

end Writing

/-- **Writes are judged by the log.** At every point of every run, a request that writes any
data to any identifier is answered with the code, or the acknowledgement, that the log gives.
A write that the log authorises is never refused. -/
theorem write_did_judged_by_log (boot : UInt64) (past : List ServerInput) (amb : Ambient)
    (hi lo : UInt8) (data : List UInt8) :
    (udsProcessRequest amb (serverRun boot past) ([0x2E, hi, lo] ++ data) udsMaxMsgLen).2 =
      (logbook boot (serverTrace boot past)).writeAnswer hi lo data :=
  (logbook_describes boot past).write amb hi lo data

/-! ## Trouble codes -/

/-- A positive answer to ClearDiagnosticInformation. -/
def ClearsCodes (v : ServerVisit) : Prop := byteAt (response v) 0 = 0x54

instance (v : ServerVisit) : Decidable (ClearsCodes v) := inferInstanceAs (Decidable (_ = _))

/-- The log loses its codes with the answer that clears them, and with no other step. -/
theorem record_codes (b : Logbook) (s : EcuState) (i : ServerInput) :
    (b.record i (response (visit serverStep s i))).codes =
      if ClearsCodes (visit serverStep s i) then [] else b.codes := by
  cases op : i.op with
  | request req =>
      simp only [Logbook.record, op, Logbook.answered, ClearsCodes]
      split_ifs <;> simp_all
  | s3Iteration =>
      have silent : ¬ ClearsCodes (visit serverStep s i) := by
        simp [ClearsCodes, response, visit, serverStep, op, byteAt]
      rw [if_neg silent]
      simp only [Logbook.record, op]
      split_ifs <;> rfl
  | engineTick =>
      have silent : ¬ ClearsCodes (visit serverStep s i) := by
        simp [ClearsCodes, response, visit, serverStep, op, byteAt]
      rw [if_neg silent]
      simp only [Logbook.record, op]

theorem logbook_codes (boot : UInt64) (inputs : List ServerInput) :
    (logbook boot (serverTrace boot inputs)).codes =
      if ∃ v ∈ serverTrace boot inputs, ClearsCodes v then [] else seededCodes := by
  refine history_invariant serverStep (H := fun past _ => (logbook boot past).codes =
    if ∃ v ∈ past, ClearsCodes v then [] else seededCodes) ?_ (by simp [logbook]; rfl) inputs
  intro past s i known
  rw [logbook_snoc]
  refine (record_codes (logbook boot past) s i).trans ?_
  rw [known]
  by_cases clears : ClearsCodes (visit serverStep s i)
  · simp [clears]
  · simp [clears, or_and_right, exists_or]

/-- **Trouble codes are reported until they are cleared.** At every point of every run and for
every status mask: the seeded codes that match the mask are reported, whatever else was
requested, until the first positive answer to ClearDiagnosticInformation, and none from then
on. -/
theorem read_dtc_until_cleared (boot : UInt64) (past : List ServerInput) (amb : Ambient)
    (mask : UInt8) :
    let codes := if ∃ v ∈ serverTrace boot past, ClearsCodes v then [] else seededCodes
    udsProcessRequest amb (serverRun boot past) [0x19, 0x02, mask] udsMaxMsgLen =
      (serverRun boot past,
        .positive ([0x59, 0x02, 0x29] ++ dtcFormat.encodeAll (reported mask codes))
          (3 + 4 * (reported mask codes).length)) := by
  intro codes
  have holds := (logbook_describes boot past).codes
  rw [logbook_codes] at holds
  have few : (reported mask codes).length ≤ 2 := by
    refine Nat.le_trans (List.length_filter_le _ _) ?_
    simp only [codes]
    split_ifs <;> decide
  have fits : ¬ udsMaxMsgLen < 3 + 4 * (reported mask codes).length := by
    change ¬ 4095 < _
    omega
  rw [udsProcessRequest_readDtc holds amb mask three_le_udsMaxMsgLen, if_neg fits]
  rfl

end VecuUds
