import VecuUds.Client.Library
import VecuUds.Server.Reports

/-!
# The diagnostic tool

The reading commands of `diag_tool.py` as programs over the calls of the client library. What
they print is a function of the log of the ECU.
-/

namespace VecuUds

open Foundation

/-- A command that reads an identifier as text, with the line it prints. -/
def cmdReadText (label : String) (did : UInt16) (lib : Udsoncan) (amb : Ambient) :
    Client String := do
  let raw ← lib.readDataByIdentifier amb did
  let text ← Client.value (lib.decodeAscii raw)
  return label ++ text

/-- `cmd_read_vin`. -/
def cmdReadVin : Udsoncan → Ambient → Client String := cmdReadText "VIN: " 0xF190

/-- `cmd_read_serial`. -/
def cmdReadSerial : Udsoncan → Ambient → Client String := cmdReadText "Serial: " 0xF18C

/-- What `draw` of `cmd_monitor` meets: the readings of its three requests, and what happens
before each of them. -/
structure MonitorWindow where
  beforeRpm : List ServerInput
  rpm : Ambient
  beforeSpeed : List ServerInput
  speed : Ambient
  beforeCoolant : List ServerInput
  coolant : Ambient

/-- One round of `cmd_monitor`: revolutions per minute, km/h and °C. -/
def cmdMonitor (lib : Udsoncan) (w : MonitorWindow) : Client (Nat × Nat × Int) := do
  Client.others w.beforeRpm
  let rpmRaw ← lib.readDataByIdentifier w.rpm 0x010C
  Client.others w.beforeSpeed
  let spdRaw ← lib.readDataByIdentifier w.speed 0x010D
  Client.others w.beforeCoolant
  let cltRaw ← lib.readDataByIdentifier w.coolant 0x0105
  return (fromBytesBig rpmRaw / 4, (byteAt spdRaw 0).toNat, (byteAt cltRaw 0).toNat - 40)

/-- `status_flags` of `dtc_names.py`. -/
def statusFlags (status : UInt8) : String :=
  let names : List (UInt8 × String) :=
    [(0x01, "testFailed"), (0x02, "testFailedThisCycle"), (0x04, "pending"), (0x08, "confirmed"),
      (0x20, "testFailedSinceClear"), (0x80, "warningIndicator")]
  let flags := (names.filter fun row => status &&& row.1 ≠ 0).map Prod.snd
  if flags = [] then "—" else ", ".intercalate flags

/-- `DTC_NAMES`. -/
def dtcNames : List (Nat × String) :=
  [(0x030100, "P0301  Cylinder 1 Misfire"),
    (0x042000, "P0420  Catalyst System Efficiency Below Threshold (Bank 1)"),
    (0x017100, "P0171  System Too Lean (Bank 1)"),
    (0x012800, "P0128  Coolant Thermostat Below Regulating Temperature"),
    (0x070100, "P0701  Transmission Control System Range/Performance")]

/-- A number in hexadecimal, padded to six digits. -/
def hexSix (n : Nat) : String :=
  .ofList (((Nat.toDigits 16 n).map Char.toUpper).leftpad 6 '0')

/-- `format_dtc`. -/
def formatDtc (c : TroubleCode) : String :=
  let name := (dtcNames.lookup c.code).getD ("0x" ++ hexSix c.code ++ "  (unknown)")
  "  " ++ name ++ "   [" ++ statusFlags c.status ++ "]"

/-- `cmd_read_dtc`, with the lines it prints. -/
def cmdReadDtc (lib : Udsoncan) (amb : Ambient) : Client (List String) := do
  let dtcs ← lib.getDtcByStatusMask amb 0x09
  if dtcs = [] then return ["No active DTCs."]
  else return ("Active DTCs (" ++ toString dtcs.length ++ "):") :: dtcs.map formatDtc

/-- `cmd_clear_dtc`. -/
def cmdClearDtc (lib : Udsoncan) (amb : Ambient) : Client String := do
  lib.clearDtc amb 0xFFFFFF
  return "DTCs cleared."

/-! ## Reading identifiers -/

section Readings

variable {lib : Udsoncan} {b : Logbook} {s : EcuState} {did : UInt16}

/-- The two bytes of an identifier in a request are joined again by the ECU. -/
theorem join16_split (did : UInt16) :
    join16 (did >>> 8).toUInt8 (did &&& 0xFF).toUInt8 = did := by
  apply UInt16.toNat_inj.mp
  have masked : (did &&& 0xFF).toNat = did.toNat % 2 ^ 8 := Nat.and_two_pow_sub_one_eq_mod _ 8
  rw [toNat_join16, UInt16.toNat_toUInt8, UInt16.toNat_toUInt8, masked,
    UInt16.toNat_shiftRight, Nat.shiftRight_eq_div_pow]
  change did.toNat / 256 % 256 * 256 + did.toNat % 256 % 256 = did.toNat
  have bound : did.toNat < 65536 := did.toNat_lt
  omega

/-- Data of a fixed length belong to a codec of this length. -/
theorem Logbook.fixed_codec {fixed : UInt16} {data : List UInt8} {len : Nat} (here : did = fixed)
    (logged : b.data fixed = some data) (length : data.length = len) (other : fixed ≠ 0xF200) :
    ∃ data, b.data did = some data ∧ data.length ≤ len ∧ (did ≠ 0xF200 → data.length = len) ∧
      (did = 0xF200 → len = 32) := by
  subst here
  exact ⟨data, logged, Nat.le_of_eq length, fun _ => length, fun name => absurd name other⟩

/-- Every codec belongs to an identifier of the ECU, and only the owner name may be shorter than
its codec. -/
theorem Describes.data_of_codec (describes : Describes b s) {len : Nat}
    (known : didCodecLen did = some len) :
    ∃ data, b.data did = some data ∧ data.length ≤ len ∧ (did ≠ 0xF200 → data.length = len) ∧
      (did = 0xF200 → len = 32) := by
  simp only [didCodecLen] at known
  split_ifs at known with vin serial spare rpm speed coolant name
  · exact Logbook.fixed_codec vin rfl (Option.some.inj known) (by decide)
  · exact Logbook.fixed_codec serial rfl (Option.some.inj known) (by decide)
  · exact Logbook.fixed_codec spare rfl (Option.some.inj known) (by decide)
  · exact Logbook.fixed_codec rpm rfl (Option.some.inj known) (by decide)
  · exact Logbook.fixed_codec speed rfl (Option.some.inj known) (by decide)
  · exact Logbook.fixed_codec coolant rfl (Option.some.inj known) (by decide)
  · obtain rfl := Option.some.inj known
    have short : b.owner.length ≤ 32 := by
      rw [← describes.owner, OwnerName.content, List.length_take]
      exact Nat.le_trans (Nat.min_le_left _ _) s.owner.len_le
    subst name
    exact ⟨b.owner, rfl, short, fun other => absurd rfl other, fun _ => rfl⟩

/-- Reading an identifier whose data are not longer than its codec. -/
theorem Describes.readDataByIdentifier (describes : Describes b s) (documented : lib.Documented)
    (amb : Ambient) (did : UInt16) {len : Nat} {data : List UInt8}
    (known : didCodecLen did = some len) (logged : b.data did = some data)
    (short : data.length ≤ len) :
    (lib.readDataByIdentifier amb did).run s =
      if data.length = len then .ok data s else .error .unexpectedResponse s := by
  obtain ⟨raw, shape⟩ : ∃ raw : List UInt8, raw = 0x62 :: (didBytes did ++ data) := ⟨_, rfl⟩
  have read := describes.read amb (did >>> 8).toUInt8 (did &&& 0xFF).toUInt8
  have step : serverStep s ⟨.request (0x22 :: didBytes did), amb⟩ =
      (s, some (.positive raw (3 + data.length))) := by
    simp only [serverStep, didBytes, read, Logbook.readAnswer, join16_split, logged, shape]
    rfl
  split_ifs with exact
  · refine (documented.readDataByIdentifier amb known).positive step rfl ?_ ⟨?_, exact⟩
    · change byteAt raw 0 = _
      rw [shape]
      rfl
    · change raw.drop 1 = _
      rw [shape]
      rfl
  · exact documented.incomplete amb known step rfl shape (Nat.lt_of_le_of_ne short exact)

end Readings

/-- **The codecs of the tool fit the ECU.** At every point of every run, reading an identifier
through its codec returns what the log says and changes nothing, with one exception: the codec
of the owner name accepts names of exactly 32 bytes only. -/
theorem read_by_codec {lib : Udsoncan} (documented : lib.Documented) (boot : UInt64)
    (past : List ServerInput) (amb : Ambient) {did : UInt16} {len : Nat}
    (known : didCodecLen did = some len) :
    ∃ data, (logbook boot (serverTrace boot past)).data did = some data ∧
      (lib.readDataByIdentifier amb did).run (serverRun boot past) =
        if did = 0xF200 ∧ data.length ≠ 32 then
          .error .unexpectedResponse (serverRun boot past)
        else .ok data (serverRun boot past) := by
  have describes := logbook_describes boot past
  generalize logbook boot (serverTrace boot past) = b at describes ⊢
  obtain ⟨data, logged, short, fixed, owner⟩ := describes.data_of_codec known
  refine ⟨data, logged, ?_⟩
  rw [describes.readDataByIdentifier documented amb did known logged short]
  by_cases name : did = 0xF200
  · obtain rfl := owner name
    simp [name, ite_not]
  · simp [name, fixed name]

/-- The owner name of a fresh ECU is too short for its codec. -/
theorem read_by_codec_anonymous :
    ∃ data, (logbook 0 (serverTrace 0 [])).data 0xF200 = some data ∧
      ((Udsoncan.plain true).readDataByIdentifier (.still 0) 0xF200).run (serverRun 0 []) =
        if (0xF200 : UInt16) = 0xF200 ∧ data.length ≠ 32 then
          .error .unexpectedResponse (serverRun 0 [])
        else .ok data (serverRun 0 []) :=
  read_by_codec (Udsoncan.plain_documented true) 0 [] (.still 0)
    (by decide : didCodecLen 0xF200 = some 32)

/-- An identifier that holds a text of its codec's length is printed as this text. -/
theorem Describes.cmdReadText {lib : Udsoncan} (documented : lib.Documented) {b : Logbook}
    {s : EcuState} (describes : Describes b s) (amb : Ambient) (label : String) {did : UInt16}
    {text : String} {data : List UInt8} (known : didCodecLen did = some data.length)
    (logged : b.data did = some data) (encoded : asciiEncode text = some data) :
    (cmdReadText label did lib amb).run s = .ok (label ++ text) s := by
  have read := describes.readDataByIdentifier documented amb did known logged (Nat.le_refl _)
  rw [if_pos rfl] at read
  rw [VecuUds.cmdReadText, Client.bind_ok read, documented.decodeAscii encoded]
  rfl

/-- How often the engine has ticked in a run. -/
def engineTicks (inputs : List ServerInput) : Nat :=
  inputs.countP fun i => i.op = .engineTick

/-- The log counts the ticks of the engine. -/
theorem record_ticks (b : Logbook) (i : ServerInput) (resp : List UInt8) :
    (b.record i resp).ticks = b.ticks + (if i.op = .engineTick then 1 else 0) := by
  cases op : i.op with
  | request req =>
      simp only [Logbook.record, op, Logbook.answered, reduceCtorEq, if_false]
      split_ifs <;> rfl
  | s3Iteration =>
      simp only [Logbook.record, op, reduceCtorEq, if_false]
      split_ifs <;> rfl
  | engineTick => simp only [Logbook.record, op, if_true]

theorem logbook_ticks (boot : UInt64) (inputs : List ServerInput) :
    (logbook boot (serverTrace boot inputs)).ticks = engineTicks inputs := by
  induction inputs using List.reverseRecOn with
  | nil => rfl
  | append_singleton past i ih =>
      rw [serverTrace, trace_snoc, logbook_snoc, record_ticks, engineTicks, List.countP_append,
        ← engineTicks, ← ih, List.countP_singleton]
      simp only [decide_eq_true_eq]
      rfl

theorem serverRun_append (boot : UInt64) (past steps : List ServerInput) :
    run serverStep (serverRun boot past) steps = serverRun boot (past ++ steps) :=
  (run_append serverStep (vecuInit boot) past steps).symm

/-- **The monitor shows the engine.** Whatever happens before and between its three requests,
one round of `cmd_monitor` ends without an exception and shows the revolutions and the speed of
the last tick before each request, and the temperature that belongs to the number of ticks so
far. -/
theorem monitor_shows_engine {lib : Udsoncan} (documented : lib.Documented) (boot : UInt64)
    (past : List ServerInput) (w : MonitorWindow) :
    let first := past ++ w.beforeRpm
    let second := first ++ w.beforeSpeed
    let third := second ++ w.beforeCoolant
    (cmdMonitor lib w).run (serverRun boot past) =
      .ok ((logbook boot (serverTrace boot first)).engine.1.toNat / 4,
          (logbook boot (serverTrace boot second)).engine.2.toNat,
          coolantAfter (engineTicks third))
        (serverRun boot third) := by
  intro first second third
  have rpm := (logbook_describes boot first).readDataByIdentifier documented w.rpm 0x010C rfl rfl
    (Nat.le_of_eq (length_digitsBig 2 _))
  have speed := (logbook_describes boot second).readDataByIdentifier documented w.speed 0x010D rfl
    rfl (Nat.le_refl 1)
  have coolant := (logbook_describes boot third).readDataByIdentifier documented w.coolant 0x0105
    rfl rfl (Nat.le_refl 1)
  rw [if_pos (length_digitsBig 2 _)] at rpm
  rw [if_pos (List.length_singleton)] at speed coolant
  have raw : fromBytesBig (digitsBig 2 (logbook boot (serverTrace boot first)).engine.1.toNat) =
      (logbook boot (serverTrace boot first)).engine.1.toNat := by
    rw [fromBytesBig_digitsBig]
    exact Nat.mod_eq_of_lt (UInt16.toNat_lt _)
  have shifted : ((byteAt [UInt8.ofNat (coolantAfter (engineTicks third) + 40)] 0).toNat : Int) -
      40 = coolantAfter (engineTicks third) := by
    have warm : coolantAfter (engineTicks third) ≤ 92 := Nat.min_le_left _ _
    have byte : (UInt8.ofNat (coolantAfter (engineTicks third) + 40)).toNat =
        coolantAfter (engineTicks third) + 40 := by
      rw [UInt8.toNat_ofNat']
      omega
    rw [byteAt_cons_zero, byte]
    omega
  rw [logbook_ticks] at coolant
  rw [cmdMonitor, Client.bind_ok (Client.others_run _ _), serverRun_append, Client.bind_ok rpm,
    Client.bind_ok (Client.others_run _ _), serverRun_append, Client.bind_ok speed,
    Client.bind_ok (Client.others_run _ _), serverRun_append, Client.bind_ok coolant, raw, shifted]
  rfl

/-- A monitor that starts with the ECU, and a tick before its second request. -/
theorem monitor_shows_engine_after_boot :
    let w : MonitorWindow := ⟨[], .still 0, [⟨.engineTick, .still 1⟩], .still 1, [], .still 1⟩
    (cmdMonitor (.plain true) w).run (serverRun 0 []) =
      .ok ((logbook 0 (serverTrace 0 [])).engine.1.toNat / 4,
          (logbook 0 (serverTrace 0 [⟨.engineTick, .still 1⟩])).engine.2.toNat,
          coolantAfter (engineTicks [⟨.engineTick, .still 1⟩]))
        (serverRun 0 [⟨.engineTick, .still 1⟩]) :=
  monitor_shows_engine (Udsoncan.plain_documented true) 0 []
    ⟨[], .still 0, [⟨.engineTick, .still 1⟩], .still 1, [], .still 1⟩

/-! ## Trouble codes -/

theorem Describes.getDtcByStatusMask {lib : Udsoncan} (documented : lib.Documented) {b : Logbook}
    {s : EcuState} (describes : Describes b s) (amb : Ambient) (mask : UInt8) :
    (lib.getDtcByStatusMask amb mask).run s =
      .ok ((reported mask b.codes).filter fun c => c.code ≠ 0) s := by
  have bound : (reported mask b.codes).length ≤ 16 := by
    refine Nat.le_trans (List.length_filter_le _ _) ?_
    rw [← describes.codes.length]
    exact s.dtcs.bound
  have fits : ¬ udsMaxMsgLen < 3 + 4 * (reported mask b.codes).length := by
    change ¬ 4095 < _
    omega
  obtain ⟨raw, shape⟩ : ∃ raw : List UInt8,
      raw = [0x59, 0x02, dtcMemInit.availabilityMask] ++
        dtcFormat.encodeAll (reported mask b.codes) := ⟨_, rfl⟩
  have step : serverStep s ⟨.request [0x19, 0x02, mask], amb⟩ =
      (s, some ⟨0, raw, some (3 + 4 * (reported mask b.codes).length)⟩) := by
    simp only [serverStep, udsProcessRequest_readDtc describes.codes amb mask
      three_le_udsMaxMsgLen, if_neg fits, shape]
  refine (documented.getDtcByStatusMask amb mask).positive step rfl ?_
    ⟨?_, reported mask b.codes, ?_, rfl⟩
  · change byteAt raw 0 = _
    rw [shape]
    rfl
  · change byteAt raw 1 = _
    rw [shape]
    rfl
  · change raw.drop 3 = _
    rw [shape]
    rfl

/-- What `cmd_read_dtc` prints for the seeded codes. -/
def seededLines : List String :=
  ["Active DTCs (2):",
    "  P0301  Cylinder 1 Misfire   [testFailed, confirmed, testFailedSinceClear]",
    "  P0420  Catalyst System Efficiency Below Threshold (Bank 1)   " ++
      "[testFailed, confirmed, testFailedSinceClear]"]

/-- What `cmd_read_dtc` prints, by the codes of the log. -/
theorem Describes.cmdReadDtc {lib : Udsoncan} (documented : lib.Documented) {b : Logbook}
    {s : EcuState} (describes : Describes b s) {cleared : Prop} [Decidable cleared]
    (known : b.codes = if cleared then [] else seededCodes) (amb : Ambient) :
    (cmdReadDtc lib amb).run s = .ok (if cleared then ["No active DTCs."] else seededLines) s := by
  have codes := describes.getDtcByStatusMask documented amb 0x09
  rw [known] at codes
  rw [VecuUds.cmdReadDtc, Client.bind_ok codes]
  by_cases gone : cleared
  · rw [if_pos gone, if_pos gone]
    rfl
  · have all : (reported 0x09 seededCodes).filter (fun c => c.code ≠ 0) = seededCodes := by decide
    have some : seededCodes ≠ [] := by decide
    have lines : ("Active DTCs (" ++ toString seededCodes.length ++ "):") ::
        seededCodes.map formatDtc = seededLines := by decide
    rw [if_neg gone, if_neg gone, all, if_neg some, lines]
    rfl

theorem serverStep_clearDtc (s : EcuState) (amb : Ambient) :
    serverStep s ⟨.request [0x14, 0xFF, 0xFF, 0xFF], amb⟩ =
      ({ s with dtcs := dtcMemClearAll s.dtcs }, some (.positive [0x54] 1)) := by
  have row : udsProcessRequest amb s [0x14, 0xFF, 0xFF, 0xFF] udsMaxMsgLen =
      hClearDtc amb s [0x14, 0xFF, 0xFF, 0xFF] udsMaxMsgLen :=
    udsProcessRequest_row (u := .clearDtc) amb s three_le_udsMaxMsgLen rfl rfl
  simp only [serverStep, row]
  rfl

/-- **The tool lists the seeded codes until they are cleared.** At every point of every run
`cmd_read_dtc` ends without an exception. It prints the two codes of a fresh ECU with their
names, or, once anyone has had the codes cleared, that there are none. `cmd_clear_dtc` always
succeeds, and whatever happens later, `cmd_read_dtc` finds nothing after it. -/
theorem trouble_codes_of_the_tool {lib : Udsoncan} (documented : lib.Documented) (boot : UInt64)
    (past : List ServerInput) (amb : Ambient) :
    (cmdReadDtc lib amb).run (serverRun boot past) =
        .ok (if ∃ v ∈ serverTrace boot past, ClearsCodes v then ["No active DTCs."]
            else seededLines)
          (serverRun boot past) ∧
      ∀ later reading, ∃ final,
        (do
          let _ ← cmdClearDtc lib amb
          Client.others later
          cmdReadDtc lib reading).run (serverRun boot past) = .ok ["No active DTCs."] final := by
  refine ⟨(logbook_describes boot past).cmdReadDtc documented (logbook_codes boot past) amb, ?_⟩
  intro later reading
  let clear : ServerInput := ⟨.request [0x14, 0xFF, 0xFF, 0xFF], amb⟩
  have step := serverStep_clearDtc (serverRun boot past) amb
  have after : serverRun boot (past ++ [clear]) = (serverStep (serverRun boot past) clear).1 :=
    run_snoc serverStep (vecuInit boot) past clear
  have cleared : (cmdClearDtc lib amb).run (serverRun boot past) =
      .ok "DTCs cleared." (serverRun boot (past ++ [clear])) := by
    have positive : (lib.clearDtc amb 0xFFFFFF).run (serverRun boot past) = .ok () _ :=
      (documented.clearDtc amb 0xFFFFFF).positive step rfl rfl trivial
    rw [after, step, cmdClearDtc, Client.bind_ok positive]
    rfl
  have gone : ∃ v ∈ serverTrace boot (past ++ [clear] ++ later), ClearsCodes v := by
    refine ⟨visit serverStep (serverRun boot past) clear, ?_, ?_⟩
    · rw [serverTrace, trace_append, trace_snoc]
      exact List.mem_append_left _ (List.mem_append_right _ (List.mem_singleton_self _))
    · simp only [ClearsCodes, response, visit, clear, step]
      rfl
  have read := (logbook_describes boot (past ++ [clear] ++ later)).cmdReadDtc documented
    (logbook_codes boot (past ++ [clear] ++ later)) reading
  rw [if_pos gone] at read
  refine ⟨serverRun boot (past ++ [clear] ++ later), ?_⟩
  rw [Client.bind_ok cleared, Client.bind_ok (Client.others_run _ _), serverRun_append]
  exact read

/-- A fresh ECU has its two codes until they are cleared. -/
theorem trouble_codes_of_the_tool_after_boot :
    (cmdReadDtc (.plain true) (.still 0)).run (serverRun 0 []) =
        .ok (if ∃ v ∈ serverTrace 0 [], ClearsCodes v then ["No active DTCs."] else seededLines)
          (serverRun 0 []) ∧
      ∀ later reading, ∃ final,
        (do
          let _ ← cmdClearDtc (.plain true) (.still 0)
          Client.others later
          cmdReadDtc (.plain true) reading).run (serverRun 0 []) =
            .ok ["No active DTCs."] final :=
  trouble_codes_of_the_tool (Udsoncan.plain_documented true) 0 [] (.still 0)

end VecuUds
