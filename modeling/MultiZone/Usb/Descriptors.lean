import MultiZone.Usb.Bus
import MultiZone.Memory.Layout

/-! The class descriptor of the device, which is stored into a C structure as it comes.
The structure has a byte of padding that the descriptor has not. -/
namespace MultiZone.Usb
open Transition

inductive GenField where
  | bLength
  | bDescriptorType
  | bcdGEN
  | bCountryCode
  | bNumDescriptors
  | bReportDescriptorType
  | wItemLength
  deriving DecidableEq, Repr

def uint8 : Memory.Field := ⟨1, 1⟩
def uint16 : Memory.Field := ⟨2, 2⟩

def leading : List Memory.Field := [uint8, uint8, uint16, uint8, uint8, uint8]

def genDescriptor : List Memory.Field := leading ++ [uint16]

namespace GenField

def index : GenField → Nat
  | bLength => 0
  | bDescriptorType => 1
  | bcdGEN => 2
  | bCountryCode => 3
  | bNumDescriptors => 4
  | bReportDescriptorType => 5
  | wItemLength => 6

def size (f : GenField) : Nat := (genDescriptor.getD f.index uint8).size

/-- By the C ABI, and in the descriptor. -/
def offset (f : GenField) : Nat := (Memory.offsets 0 genDescriptor).getD f.index 0

def usbOffset (f : GenField) : Nat := (Memory.packed 0 genDescriptor).getD f.index 0

end GenField

/-- USBH_GEN_DESC_SIZE bytes. -/
abbrev ClassDescriptor := Fin 9 → Byte

def Driver.genField (d : Driver) (f : GenField) : Nat :=
  Memory.number (Memory.window (fun i => if h : i < 10 then d.genDesc ⟨i, h⟩ else 0)
    f.offset f.size)

def ClassDescriptor.genField (desc : ClassDescriptor) (f : GenField) : Nat :=
  Memory.number (Memory.window (fun i => if h : i < 9 then desc ⟨i, h⟩ else 0)
    f.usbOffset f.size)

/-- The control transfer of REQ_GET_GEN_DESC. -/
def Driver.stored (d : Driver) (desc : ClassDescriptor) : Driver :=
  d.receive .genDesc (List.ofFn desc)

/-- What the driver reads is what the device has sent. -/
structure Decoded (d : Driver) (desc : ClassDescriptor) : Prop where
  length : (d.stored desc).wItemLength.toNat = (desc 7).toNat + 256 * (desc 8).toNat
  others : ∀ f ≠ .wItemLength, (d.stored desc).genField f = desc.genField f

theorem littleEndian_toNat (low high : Byte) :
    (littleEndian low high).toNat = low.toNat + 256 * high.toNat := by
  have small := low.toNat_lt
  have high_small := high.toNat_lt
  unfold littleEndian
  rw [UInt16.toNat_or, UInt16.toNat_shiftLeft, UInt8.toNat_toUInt16, UInt8.toNat_toUInt16]
  change (high.toNat <<< 8) % 2 ^ 16 ||| low.toNat = _
  rw [Nat.mod_eq_of_lt (by rw [Nat.shiftLeft_eq]; omega), ← Nat.shiftLeft_add_eq_or_of_lt small,
    Nat.shiftLeft_eq]
  omega

theorem genDesc_layout (d : Driver) : Buffer.genDesc.size = Memory.structSize genDescriptor ∧
    d.wItemLength.toNat = d.genField .wItemLength :=
  ⟨rfl, littleEndian_toNat (d.genDesc 8) (d.genDesc 9)⟩

theorem stored_at (d : Driver) (desc : ClassDescriptor) {i : Nat} (inside : i < 9) :
    (d.stored desc).genDesc ⟨i, Nat.lt_succ_of_lt inside⟩ = desc ⟨i, inside⟩ := by
  have entry : (List.ofFn desc)[i]? = some (desc ⟨i, inside⟩) := by
    rw [List.getElem?_ofFn, dif_pos inside]
  change ((List.ofFn desc)[i]?).getD _ = _
  rw [entry, Option.getD_some]

theorem stored_tail (d : Driver) (desc : ClassDescriptor) :
    (d.stored desc).genDesc 9 = d.genDesc 9 := by
  have entry : (List.ofFn desc)[9]? = none := by
    rw [List.getElem?_ofFn, dif_neg (Nat.lt_irrefl 9)]
  exact congrArg (Option.getD · (d.genDesc 9)) entry

theorem stored_length (d : Driver) (desc : ClassDescriptor) :
    (d.stored desc).wItemLength.toNat = (desc 8).toNat + 256 * (d.genDesc 9).toNat := by
  rw [Driver.wItemLength, littleEndian_toNat, stored_tail]
  exact congrArg (fun b : Byte => b.toNat + _) (stored_at d desc (by decide : 8 < 9))

/-- Only wItemLength begins elsewhere than in the descriptor. -/
theorem offset_leading {f : GenField} (other : f ≠ .wItemLength) : f.offset = f.usbOffset := by
  have inside : f.index < leading.length := by
    cases f with
    | wItemLength => exact absurd rfl other
    | _ => decide
  have same := @Memory.leading_fields 0 f.index leading [uint16] (by decide) inside
  rw [GenField.offset, GenField.usbOffset, List.getD_eq_getElem?_getD, List.getD_eq_getElem?_getD]
  exact congrArg (·.getD 0) same

theorem stored_others (d : Driver) (desc : ClassDescriptor) {f : GenField}
    (other : f ≠ .wItemLength) : (d.stored desc).genField f = desc.genField f := by
  have fits : f.usbOffset + f.size ≤ 9 := by cases f <;> decide
  unfold Driver.genField ClassDescriptor.genField
  rw [offset_leading other]
  apply congrArg Memory.number
  apply List.map_congr_left
  intro j hj
  have inside : f.usbOffset + j < 9 := by
    have bound := List.mem_range.mp hj
    omega
  dsimp only
  rw [dif_pos (Nat.lt_succ_of_lt inside), dif_pos inside]
  exact stored_at d desc inside

/-- The descriptor is decoded exactly if both bytes of its item length are the one that
lies behind the ninth byte of the structure. -/
theorem decoded_iff (d : Driver) (desc : ClassDescriptor) :
    Decoded d desc ↔ desc 7 = desc 8 ∧ desc 8 = d.genDesc 9 := by
  have low := (desc 7).toNat_lt
  have high := (desc 8).toNat_lt
  have length := stored_length d desc
  rw [← UInt8.toNat_inj, ← UInt8.toNat_inj]
  constructor
  · intro decoded
    have same := length.symm.trans decoded.length
    omega
  · rintro ⟨equal, tail⟩
    exact ⟨by omega, fun f other => stored_others d desc other⟩

section Reachable

variable {k : StdDef} {cb : UserCb}

/-- The transfer into USBH_GEN_Desc has nine bytes, and nothing else is stored there. -/
structure TailClear (s : Bus) : Prop where
  tail : s.driver.genDesc 9 = 0
  short : ∀ length, s.request = some (.genDesc, length) → length = 9

theorem handle_genDesc {env : Env} {d : Driver} : (handle cb env d).1.genDesc = d.genDesc := by
  unfold handle
  split
  · rfl
  · rfl
  · dsimp only
    split <;> rfl
  · split <;> rfl
  all_goals rfl

theorem checked_genDesc (d : Driver) (res : ErrCode) : (d.afterCheck res).genDesc = d.genDesc := by
  unfold Driver.afterCheck
  split <;> rfl

theorem extracted_genDesc (d : Driver) : (extractTdevEpDesc k d).2.genDesc = d.genDesc := by
  unfold extractTdevEpDesc
  split
  · rfl
  · split <;> rfl

theorem genTask_genDesc (env : Env) (d : Driver) :
    (genTask k cb env d).1.genDesc = d.genDesc := by
  cases state : d.genState with
  | deviceReady =>
    rw [genTask, state]
    exact handle_genDesc
  | waitGetClassDescr =>
    rw [genTask, state]
    dsimp only
    split
    · rw [checked_genDesc, extracted_genDesc, checked_genDesc]
    · rfl
  | idle | getClassDescr | waitSetConfig | waitDevSettle | waitGetGenDesc
  | waitReqGetReportDesc | waitReqSetIdle | waitReqSetProtocol =>
    rw [genTask, state]
    dsimp only
    split <;> rfl
  | setConfig | reqGetGenDesc | reqGetReportDesc | reqSetIdle | reqSetProtocol | deviceRetry
  | error => rw [genTask, state]

theorem genTask_request {env : Env} {d : Driver} {length : UInt16}
    (h : requested (genTask k cb env d).2 = some (.genDesc, length)) : length = 9 := by
  cases state : d.genState with
  | deviceReady =>
    rw [genTask, state] at h
    dsimp only at h
    rw [handle_requested] at h
    cases h
  | setConfig =>
    cases valid : cb.validConfig <;> simp [genTask, state, valid, requested] at h
  | waitReqSetIdle =>
    by_cases event : d.cepEvent = 0 <;> cases ready : cb.tdevReady <;>
      simp [genTask, state, event, ready, requested] at h
  | reqGetGenDesc =>
    simp only [genTask, state, requested, List.findSome?_cons] at h
    cases h
    rfl
  | getClassDescr =>
    by_cases ready : env.tdevState = .address ∧ env.cepState = .cepIdle <;>
      simp [genTask, state, ready, requested] at h
  | waitGetClassDescr =>
    by_cases event : d.cepEvent = 0 <;> simp [genTask, state, event, requested] at h
  | _ => simp [genTask, state, requested] at h

theorem task_clear {s : Bus} (env : Env) (h : TailClear s) : TailClear (s.task k cb env) := by
  have kept := @genTask_genDesc k cb env s.driver
  unfold Bus.task
  dsimp only
  split
  · exact ⟨(congrFun kept 9).trans h.tail, h.short⟩
  · rename_i request hr
    refine ⟨(congrFun kept 9).trans h.tail, fun length same => ?_⟩
    obtain rfl := Option.some.inj same
    exact genTask_request hr

theorem receive_clear {s t : Bus} {data : List Byte} (h : TailClear s)
    (hs : s.receive data = some t) : TailClear t := by
  obtain ⟨buffer, length, request, fits, rfl⟩ := Bus.receive_cases hs
  refine ⟨?_, h.short⟩
  cases buffer with
  | genDesc =>
    rw [h.short length request] at fits
    have beyond : data[9]? = none := List.getElem?_eq_none fits
    exact (congrArg (Option.getD · (s.driver.genDesc 9)) beyond).trans h.tail
  | genConfDesc | genReport | rxBuffer => exact h.tail

theorem tailClear_step {s t : Bus} {e : Event} (h : TailClear s)
    (hs : (bus k cb).step s e = some t) : TailClear t := by
  cases e with
  | task env => exact Option.some.inj hs ▸ task_clear env h
  | receive data => exact receive_clear h hs
  | cepDone xfr status =>
    obtain ⟨-, rfl⟩ := cepDone_cases hs
    exact ⟨h.tail, h.short⟩
  | rx status =>
    obtain rfl := Option.some.inj hs
    refine ⟨?_, h.short⟩
    have kept : (rxCb k status s.driver).1.genDesc = s.driver.genDesc := by
      rcases rxCb_cases k status s.driver with ⟨-, run⟩ | ⟨-, -, run⟩ | ⟨-, -, run⟩ <;> rw [run]
    exact (congrFun kept 9).trans h.tail
  | allocate tdevAddr | release tdevAddr | write | txComplete =>
    exact Option.some.inj hs ▸ ⟨h.tail, h.short⟩

/-- In every run the byte behind is 0, and so the one length that is decoded is 0. -/
theorem reachable_decoded_iff {events : List Event} {s : Bus}
    (hr : (bus k cb).run (bus k cb).initial events = some s) (desc : ClassDescriptor) :
    Decoded s.driver desc ↔ desc 7 = 0 ∧ desc 8 = 0 := by
  have clear : TailClear s := Machine.invariant (fun s e t h hs => tailClear_step h hs)
    ⟨rfl, fun length none => (by cases none)⟩ hr
  rw [decoded_iff, clear.tail]
  constructor
  · rintro ⟨same, zero⟩
    exact ⟨same.trans zero, zero⟩
  · rintro ⟨low, high⟩
    exact ⟨low.trans high.symm, high⟩

/-- The descriptor of a device without reports. -/
def noReport : ClassDescriptor :=
  fun i => [0x09, 0x21, 0x11, 0x01, 0x00, 0x01, 0x22, 0x00, 0x00].getD i 0

theorem reachable_decoded_noReport :
    ∃ s, (bus stdDef hidUserCb).run (bus stdDef hidUserCb).initial
        (enumerate (interruptIn 8) (List.ofFn noReport)) = some s ∧
      s.driver.genState = .deviceReady ∧ Decoded s.driver noReport :=
  ⟨_, rfl, rfl, (@reachable_decoded_iff stdDef hidUserCb
    (enumerate (interruptIn 8) (List.ofFn noReport)) _ rfl noReport).mpr ⟨rfl, rfl⟩⟩

end Reachable

/-- The descriptor of a keyboard, whose report descriptor has 63 bytes. -/
def keyboard : ClassDescriptor :=
  fun i => [0x09, 0x21, 0x11, 0x01, 0x00, 0x01, 0x22, 0x3f, 0x00].getD i 0

theorem keyboard_length : (Driver.initial.stored keyboard).wItemLength = 0 ∧
    keyboard.genField .wItemLength = 63 ∧ ¬ Decoded .initial keyboard := by
  refine ⟨by decide, by decide, fun decoded => ?_⟩
  exact absurd decoded.length (by decide)

end MultiZone.Usb
