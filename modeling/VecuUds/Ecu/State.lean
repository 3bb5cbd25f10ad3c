import VecuUds.Ecu.Security
import VecuUds.Foundation.Capped

/-!
# The ECU context

The stores behind the services (`did_table.c`, `dtc_mem.c`, `app_engine.c`) and the
context `vecu_state_t` that composes them. An array with its element count is the list
of its used entries; the capacity bound is part of the type.

Function pointers of the DID table are names: `DidCallbacks` gives the code behind
them. The names of `vecu_init` are `DidReadFn` and `DidWriteFn`; generic code is stated
for every choice of names and meanings.
-/

namespace VecuUds

open Foundation

/-! ## DID table -/

/-- `DID_TABLE_MAX`. -/
def didTableMax : Nat := 16

/-- `did_entry_t`. A missing pointer is `none`. -/
structure DidEntry (ρ ω : Type) where
  did : UInt16
  staticData : Option (List UInt8) := none
  staticLen : Nat := 0
  read : Option ρ := none
  write : Option ω := none
  requiresSecurity : Bool := false
  requiresExtendedSession : Bool := false
  deriving DecidableEq, Repr

/-- `did_table_t`: the first `count` entries of the array. -/
structure DidTable (ρ ω : Type) where
  entries : List (DidEntry ρ ω)
  bound : entries.length ≤ didTableMax
  deriving DecidableEq

/-- `did_table_init`. -/
def didTableInit (ρ ω : Type) : DidTable ρ ω := ⟨[], Nat.zero_le _⟩

/-- `did_table_add`. A full table stays as it is. -/
def didTableAdd {ρ ω : Type} (t : DidTable ρ ω) (entry : DidEntry ρ ω) : DidTable ρ ω :=
  if room : t.entries.length < didTableMax then
    ⟨t.entries ++ [entry], by rw [List.length_append]; exact room⟩
  else t

/-- The return code of `did_table_add`. -/
def didTableAddRc {ρ ω : Type} (t : DidTable ρ ω) : Int :=
  if t.entries.length < didTableMax then 0 else -1

theorem entries_didTableAdd {ρ ω : Type} (t : DidTable ρ ω) (entry : DidEntry ρ ω) :
    (didTableAdd t entry).entries = offer didTableMax t.entries entry := by
  unfold didTableAdd offer
  split_ifs <;> rfl

/-- `did_table_lookup`: the first entry with the identifier. -/
def didTableLookup {ρ ω : Type} (t : DidTable ρ ω) (did : UInt16) : Option (DidEntry ρ ω) :=
  t.entries.find? (fun e => e.did = did)

/-! ## DTC memory -/

/-- `DTC_MAX`. -/
def dtcMax : Nat := 16

def dtcStatusTestFailed : UInt8 := 0x01
def dtcStatusConfirmed : UInt8 := 0x08
def dtcStatusTestFailedSinceLastClear : UInt8 := 0x20

structure DtcEntry where
  dtc : UInt32
  status : UInt8
  deriving DecidableEq, Repr

/-- `dtc_mem_t`: the first `count` entries of the array. -/
structure DtcMem where
  entries : List DtcEntry
  availabilityMask : UInt8
  bound : entries.length ≤ dtcMax
  deriving DecidableEq

/-- `dtc_mem_init`. -/
def dtcMemInit : DtcMem where
  entries := []
  availabilityMask :=
    dtcStatusTestFailed ||| dtcStatusConfirmed ||| dtcStatusTestFailedSinceLastClear
  bound := Nat.zero_le _

/-- `dtc_mem_add`. The code is cut to 24 bits; a full memory stays as it is. -/
def dtcMemAdd (m : DtcMem) (dtc : UInt32) (status : UInt8) : DtcMem :=
  if room : m.entries.length < dtcMax then
    { m with
      entries := m.entries ++ [⟨dtc &&& 0x00FFFFFF, status⟩]
      bound := by rw [List.length_append]; exact room }
  else m

/-- The return code of `dtc_mem_add`. -/
def dtcMemAddRc (m : DtcMem) : Int := if m.entries.length < dtcMax then 0 else -1

theorem entries_dtcMemAdd (m : DtcMem) (dtc : UInt32) (status : UInt8) :
    (dtcMemAdd m dtc status).entries = offer dtcMax m.entries ⟨dtc &&& 0x00FFFFFF, status⟩ := by
  unfold dtcMemAdd offer
  split_ifs <;> rfl

/-- `dtc_mem_clear_all`. -/
def dtcMemClearAll (m : DtcMem) : DtcMem := { m with entries := [], bound := Nat.zero_le _ }

/-- The loop of `dtc_mem_snapshot_by_mask`, with the room left in the output. -/
def dtcMemSnapshotLoop (statusMask : UInt8) : List DtcEntry → Nat → List DtcEntry
  | [], _ => []
  | _ :: _, 0 => []
  | e :: rest, room + 1 =>
      if e.status &&& statusMask ≠ 0 then e :: dtcMemSnapshotLoop statusMask rest room
      else dtcMemSnapshotLoop statusMask rest (room + 1)

/-- `dtc_mem_snapshot_by_mask`. -/
def dtcMemSnapshotByMask (m : DtcMem) (statusMask : UInt8) (max : Nat) : List DtcEntry :=
  dtcMemSnapshotLoop statusMask m.entries max

/-- With enough room the snapshot loop takes every entry that matches the mask. -/
theorem dtcMemSnapshotLoop_of_room (statusMask : UInt8) {entries : List DtcEntry} {room : Nat}
    (fits : entries.length ≤ room) :
    dtcMemSnapshotLoop statusMask entries room =
      entries.filter fun e => e.status &&& statusMask ≠ 0 := by
  induction entries generalizing room with
  | nil => rfl
  | cons e rest ih =>
      rw [List.length_cons] at fits
      obtain ⟨more, rfl⟩ : ∃ more, room = more + 1 := ⟨room - 1, by omega⟩
      rw [dtcMemSnapshotLoop]
      split_ifs with hit
      · rw [ih (by omega), List.filter_cons_of_pos (by simpa using hit)]
      · rw [ih (by omega), List.filter_cons_of_neg (by simpa using hit)]

/-- The snapshot loop never writes past its output. -/
theorem length_dtcMemSnapshotLoop_le (statusMask : UInt8) (entries : List DtcEntry) (room : Nat) :
    (dtcMemSnapshotLoop statusMask entries room).length ≤ room := by
  induction entries generalizing room with
  | nil => simp [dtcMemSnapshotLoop]
  | cons e rest ih =>
      cases room with
      | zero => simp [dtcMemSnapshotLoop]
      | succ room =>
          simp only [dtcMemSnapshotLoop]
          split
          · simpa using ih room
          · exact ih (room + 1)

/-! ## Engine telemetry -/

/-- `app_engine_t` without its mutex. -/
structure AppEngine where
  rpm : UInt16
  speedKmh : UInt8
  coolantC : UInt8
  tick : UInt32
  deriving DecidableEq, Repr

/-- `app_engine_init`. -/
def appEngineInit : AppEngine := ⟨800 * 4, 0, 60, 0⟩

/-- `app_engine_tick`, with the two sinusoids as a function of the tick counter. -/
def appEngineTick (wave : UInt32 → UInt16 × UInt8) (a : AppEngine) : AppEngine :=
  let tick := a.tick + 1
  { rpm := (wave tick).1
    speedKmh := (wave tick).2
    coolantC := if a.coolantC < 92 ∧ tick % 30 = 0 then a.coolantC + 1 else a.coolantC
    tick := tick }

/-- `app_read_rpm`. -/
def appReadRpm (a : AppEngine) (cap : Nat) : Option (List UInt8) :=
  if cap < 2 then none else some [(a.rpm >>> 8).toUInt8, (a.rpm &&& 0xFF).toUInt8]

/-- `app_read_speed`. -/
def appReadSpeed (a : AppEngine) (cap : Nat) : Option (List UInt8) :=
  if cap < 1 then none else some [a.speedKmh]

/-- `app_read_coolant`: the raw byte is the temperature plus 40, clamped. -/
def appReadCoolant (a : AppEngine) (cap : Nat) : Option (List UInt8) :=
  if cap < 1 then none
  else
    let enc : Int := a.coolantC.toNat + 40
    let enc := if enc < 0 then 0 else enc
    let enc := if enc > 255 then 255 else enc
    some [UInt8.ofNat enc.toNat]

/-! ## Owner name -/

/-- `OWNER_NAME_CAP`. -/
def ownerNameCap : Nat := 32

/-- `owner_name` and `owner_len`: a fixed buffer and the length in use. -/
structure OwnerName where
  buf : List UInt8
  len : Nat
  buf_length : buf.length = ownerNameCap
  len_le : len ≤ ownerNameCap
  deriving DecidableEq

/-- The bytes in use, `owner_name[0..owner_len)`. -/
def OwnerName.content (o : OwnerName) : List UInt8 := o.buf.take o.len

/-- `owner_read`. -/
def ownerRead (o : OwnerName) (cap : Nat) : Option (List UInt8) :=
  some (o.buf.take (if o.len > cap then cap else o.len))

/-- Store `input` at the front of the buffer and remember its length. -/
def OwnerName.store (o : OwnerName) (input : List UInt8) (fits : input.length ≤ ownerNameCap) :
    OwnerName where
  buf := overwrite o.buf 0 input
  len := input.length
  buf_length := by
    rw [length_overwrite (by rw [o.buf_length]; omega), o.buf_length]
  len_le := fits

/-- `owner_write`; `none` is the return code `-1`. -/
def ownerWrite (o : OwnerName) (input : List UInt8) : Option OwnerName :=
  if h : input.length = 0 ∨ input.length > ownerNameCap then none
  else some (o.store input (by omega))

theorem ownerWrite_refused (o : OwnerName) {input : List UInt8}
    (bad : input.length = 0 ∨ input.length > ownerNameCap) : ownerWrite o input = none := by
  rw [ownerWrite, dif_pos bad]

theorem ownerWrite_stored (o : OwnerName) {input : List UInt8} (nonempty : input.length ≠ 0)
    (fits : input.length ≤ ownerNameCap) : ownerWrite o input = some (o.store input fits) := by
  rw [ownerWrite, dif_neg (by omega)]

@[simp] theorem OwnerName.content_store (o : OwnerName) (input : List UInt8)
    (fits : input.length ≤ ownerNameCap) : (o.store input fits).content = input :=
  take_overwrite_zero o.buf input

/-! ## Context -/

/-- `vecu_state_t` without its mutexes. -/
structure VecuState (ρ ω : Type) where
  session : UInt8
  lastTesterPresentMs : UInt64
  dids : DidTable ρ ω
  app : AppEngine
  dtcs : DtcMem
  security : SecurityState
  owner : OwnerName
  deriving DecidableEq

/-- The code behind the function pointers of a DID table. A read yields the bytes it
stored for a capacity, or `none` for a nonzero return code; a write yields its return
code and the state it left. -/
class DidCallbacks (ρ ω : Type) where
  read : ρ → VecuState ρ ω → Nat → Option (List UInt8)
  write : ω → VecuState ρ ω → List UInt8 → Int × VecuState ρ ω

/-- The read callbacks that `vecu_init` registers. -/
inductive DidReadFn where
  | appReadRpm
  | appReadSpeed
  | appReadCoolant
  | ownerRead
  deriving DecidableEq, Repr

/-- The write callback that `vecu_init` registers. -/
inductive DidWriteFn where
  | ownerWrite
  deriving DecidableEq, Repr

abbrev EcuState := VecuState DidReadFn DidWriteFn

instance : DidCallbacks DidReadFn DidWriteFn where
  read
    | .appReadRpm, s, cap => appReadRpm s.app cap
    | .appReadSpeed, s, cap => appReadSpeed s.app cap
    | .appReadCoolant, s, cap => appReadCoolant s.app cap
    | .ownerRead, s, cap => ownerRead s.owner cap
  write
    | .ownerWrite, s, input =>
        match ownerWrite s.owner input with
        | none => (-1, s)
        | some owner => (0, { s with owner := owner })

section Context

variable {ρ ω : Type}

/-- `vecu_set_session`. -/
def vecuSetSession (now : UInt64) (s : VecuState ρ ω) (session : UInt8) : VecuState ρ ω :=
  { s with session := session, lastTesterPresentMs := now }

/-- `vecu_mark_tester_present`. -/
def vecuMarkTesterPresent (now : UInt64) (s : VecuState ρ ω) : VecuState ρ ω :=
  { s with lastTesterPresentMs := now }

end Context

/-- "VF1234567890ABCDE", with its terminating zero. -/
def vinData : List UInt8 :=
  [0x56, 0x46, 0x31, 0x32, 0x33, 0x34, 0x35, 0x36, 0x37, 0x38, 0x39, 0x30, 0x41, 0x42, 0x43,
    0x44, 0x45, 0x00]

/-- "ECU-DEMO-001", with its terminating zero. -/
def serialData : List UInt8 :=
  [0x45, 0x43, 0x55, 0x2D, 0x44, 0x45, 0x4D, 0x4F, 0x2D, 0x30, 0x30, 0x31, 0x00]

/-- "SPN-0001", with its terminating zero. -/
def spareData : List UInt8 := [0x53, 0x50, 0x4E, 0x2D, 0x30, 0x30, 0x30, 0x31, 0x00]

/-- The default owner name "ANONYMOUS" in a zeroed buffer. -/
def ownerInit : OwnerName where
  buf := overwrite (List.replicate ownerNameCap 0) 0
    [0x41, 0x4E, 0x4F, 0x4E, 0x59, 0x4D, 0x4F, 0x55, 0x53]
  len := 9
  buf_length := by decide
  len_le := by decide

/-- The DID registrations of `vecu_init`, in order. -/
def ecuDids : DidTable DidReadFn DidWriteFn :=
  let t := didTableInit DidReadFn DidWriteFn
  let t := didTableAdd t { did := 0xF190, staticData := some vinData, staticLen := 17 }
  let t := didTableAdd t { did := 0xF18C, staticData := some serialData, staticLen := 12 }
  let t := didTableAdd t { did := 0xF187, staticData := some spareData, staticLen := 8 }
  let t := didTableAdd t { did := 0x010C, read := some .appReadRpm }
  let t := didTableAdd t { did := 0x010D, read := some .appReadSpeed }
  let t := didTableAdd t { did := 0x0105, read := some .appReadCoolant }
  didTableAdd t
    { did := 0xF200
      read := some .ownerRead
      write := some .ownerWrite
      requiresSecurity := true
      requiresExtendedSession := true }

/-- The status of the two trouble codes that `vecu_init` seeds. -/
def seededStatus : UInt8 :=
  dtcStatusTestFailed ||| dtcStatusConfirmed ||| dtcStatusTestFailedSinceLastClear

/-- `vecu_init`, with its one clock reading. -/
def vecuInit (now : UInt64) : EcuState where
  session := udsSessionDefault
  lastTesterPresentMs := now
  dids := ecuDids
  app := appEngineInit
  dtcs := dtcMemAdd (dtcMemAdd dtcMemInit 0x030100 seededStatus) 0x042000 seededStatus
  security := securityInit
  owner := ownerInit

end VecuUds
