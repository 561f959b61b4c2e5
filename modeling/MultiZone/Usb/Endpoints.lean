import MultiZone.Usb.Driver

/-! The endpoint that is taken from the configuration descriptor. The driver reads it at
fixed places and tests two bits of its attributes for any of them. -/
namespace MultiZone.Usb

inductive Transfer where
  | control
  | isochronous
  | bulk
  | interrupt
  deriving DecidableEq, Repr

def Transfer.code : Transfer → Byte
  | control => 0
  | isochronous => 1
  | bulk => 2
  | interrupt => 3

theorem Transfer.code_control {t : Transfer} (other : t ≠ .interrupt) :
    t.code = 0 ↔ ¬ (t = .isochronous ∨ t = .bulk) := by
  cases t with
  | interrupt => exact absurd rfl other
  | _ => decide

/-- A descriptor begins with its length and its type. -/
structure Descriptor where
  type : Byte
  body : List Byte
  short : body.length + 2 < 256

def Descriptor.bytes (d : Descriptor) : List Byte :=
  UInt8.ofNat (d.body.length + 2) :: d.type :: d.body

/-- An endpoint; `usage` are the other bits of its attributes, and bInterval and what
may follow it are the rest. -/
structure Endpoint where
  number : Fin 16
  isIn : Bool
  transfer : Transfer
  usage : Fin 64
  packetLow : Byte
  packetHigh : Byte
  rest : List Byte
  interval : rest ≠ []
  short : rest.length + 6 < 256

namespace Endpoint

def num (e : Endpoint) : Byte := UInt8.ofNat e.number.val

def address (e : Endpoint) : Byte := if e.isIn then 0x80 ||| e.num else e.num

def attributes (e : Endpoint) : Byte := UInt8.ofNat (4 * e.usage.val) ||| e.transfer.code

def maxPacket (e : Endpoint) : UInt16 := littleEndian e.packetLow e.packetHigh

def bytes (e : Endpoint) : List Byte :=
  UInt8.ofNat (e.rest.length + 6) :: 5 :: e.address :: e.attributes :: e.packetLow ::
    e.packetHigh :: e.rest

def InterruptIn (e : Endpoint) : Prop := e.transfer = .interrupt ∧ e.isIn = true

instance (e : Endpoint) : Decidable e.InterruptIn := inferInstanceAs (Decidable (_ ∧ _))

end Endpoint

/-- A well-formed configuration descriptor with all that comes with it. -/
structure ConfigDescriptor where
  configuration : Descriptor
  interface : Descriptor
  classes : List Descriptor
  endpoints : List Endpoint
  configuration_type : configuration.type = 2
  configuration_length : configuration.body.length = 7
  interface_type : interface.type = 4
  interface_length : interface.body.length = 7
  classes_type : ∀ c ∈ classes, c.type ≠ 5

namespace ConfigDescriptor

def front (c : ConfigDescriptor) : List Byte :=
  c.configuration.bytes ++ c.interface.bytes ++ c.classes.flatMap Descriptor.bytes

def bytes (c : ConfigDescriptor) : List Byte := c.front ++ c.endpoints.flatMap Endpoint.bytes

/-- The first endpoint, if it lies within the 34 bytes and is an interrupt IN one. -/
def endpoint (c : ConfigDescriptor) : Option Endpoint :=
  c.endpoints.head?.filter fun e => c.front.length + e.bytes.length ≤ 34 ∧ e.InterruptIn

end ConfigDescriptor

/-- USB_EP_DESCR_ATTR_INTR is 3, and USB_STD_REQ_DATA_DIR_MASK is 0x80. -/
def usbStd (nakTout : Byte) : StdDef := ⟨3, 0x80, nakTout⟩

/-- The first 34 bytes are in g_gen_conf_desc; what is behind a shorter one is left. -/
def Driver.loaded (d : Driver) (c : ConfigDescriptor) : Driver :=
  d.receive .genConfDesc (c.bytes.take 34)

def Extracts (nakTout : Byte) (d : Driver) (c : ConfigDescriptor) : Prop :=
  let r := extractTdevEpDesc (usbStd nakTout) (d.loaded c)
  match c.endpoint with
  | some e => r.1 = .noError ∧ r.2.inEp.num = e.num ∧ r.2.inEp.maxpktsz = e.maxPacket
  | none => r.1 = .wrongDescr ∧ r.2.inEp = d.inEp

def Driver.conf (d : Driver) (i : Nat) : Byte := if h : i < 34 then d.confDesc ⟨i, h⟩ else 0

def Coincides (d : Driver) (c : ConfigDescriptor) : Prop :=
  let conf := (d.loaded c).conf
  match c.endpoint with
  | some e =>
    conf 29 = e.address ∧ conf 30 &&& 3 ≠ 0 ∧ littleEndian (conf 31) (conf 32) = e.maxPacket
  | none => conf 29 &&& 0x80 = 0 ∨ conf 30 &&& 3 = 0

namespace Endpoint

theorem address_isIn (e : Endpoint) : e.address &&& 0x80 ≠ 0 ↔ e.isIn = true := by
  unfold address num
  generalize e.number = number
  cases e.isIn <;> revert number <;> decide

theorem address_num (e : Endpoint) : e.address &&& 0x7f = e.num := by
  unfold address num
  generalize e.number = number
  cases e.isIn <;> revert number <;> decide

theorem attributes_transfer (e : Endpoint) : e.attributes &&& 3 = e.transfer.code := by
  unfold attributes
  generalize e.usage = usage
  cases e.transfer <;> revert usage <;> decide

theorem in_address {e : Endpoint} (isIn : e.isIn = true) : e.address = 0x80 ||| e.num := by
  rw [address, if_pos isIn]

end Endpoint

theorem direction_bit (b : Byte) (isIn : b &&& 0x80 ≠ 0) : b = 0x80 ||| (b &&& 0x7f) := by
  obtain ⟨v⟩ := b
  revert v
  decide

section Extraction

variable {nakTout : Byte} {d : Driver}

def Accepted (d : Driver) : Prop := d.conf 30 &&& 3 ≠ 0 ∧ d.conf 29 &&& 0x80 ≠ 0

theorem extract_accepted (accepted : Accepted d) :
    let r := extractTdevEpDesc (usbStd nakTout) d
    r.1 = .noError ∧ r.2.inEp.num = d.conf 29 &&& 0x7f ∧
      r.2.inEp.maxpktsz = littleEndian (d.conf 31) (d.conf 32) := by
  have interrupt : d.confDesc 30 &&& 3 ≠ 0 := accepted.1
  have isIn : d.confDesc 29 &&& 0x80 ≠ 0 := accepted.2
  unfold extractTdevEpDesc usbStd
  dsimp only
  rw [if_neg interrupt, if_pos isIn]
  exact ⟨rfl, rfl, rfl⟩

theorem extract_refused (refused : ¬ Accepted d) :
    extractTdevEpDesc (usbStd nakTout) d = (.wrongDescr, d) := by
  unfold extractTdevEpDesc usbStd
  dsimp only
  split
  · rfl
  · rename_i interrupt
    exact if_neg fun isIn => refused ⟨interrupt, isIn⟩

end Extraction

section Layout

variable (nakTout : Byte) (d : Driver) {c : ConfigDescriptor} {e : Endpoint}

theorem endpoint_some (found : c.endpoint = some e) :
    c.endpoints.head? = some e ∧ c.front.length + e.bytes.length ≤ 34 ∧ e.InterruptIn := by
  obtain ⟨first, test⟩ := Option.filter_eq_some_iff.mp found
  exact ⟨first, of_decide_eq_true test⟩

theorem extracts_found (found : c.endpoint = some e) :
    Extracts nakTout d c ↔ Coincides d c := by
  have isIn := (endpoint_some found).2.2.2
  unfold Extracts Coincides
  rw [found]
  dsimp only
  by_cases accepted : Accepted (d.loaded c)
  · obtain ⟨success, num, packet⟩ := @extract_accepted nakTout _ accepted
    rw [success, num, packet]
    constructor
    · rintro ⟨-, same, size⟩
      refine ⟨?_, accepted.1, size⟩
      rw [direction_bit _ accepted.2, same, Endpoint.in_address isIn]
    · rintro ⟨same, -, size⟩
      rw [same]
      exact ⟨rfl, e.address_num, size⟩
  · rw [extract_refused accepted]
    constructor
    · rintro ⟨success, -⟩
      cases success
    · rintro ⟨same, interrupt, -⟩
      apply absurd (And.intro interrupt _) accepted
      rw [same]
      exact e.address_isIn.mpr isIn

theorem extracts_none (none : c.endpoint = none) : Extracts nakTout d c ↔ Coincides d c := by
  unfold Extracts Coincides
  rw [none]
  dsimp only
  by_cases accepted : Accepted (d.loaded c)
  · rw [(@extract_accepted nakTout _ accepted).1]
    constructor
    · rintro ⟨failure, -⟩
      cases failure
    · rintro (out | other)
      · exact absurd out accepted.2
      · exact absurd other accepted.1
  · rw [extract_refused accepted]
    constructor
    · intro unchanged
      rcases Decidable.not_and_iff_or_not.mp accepted with other | out
      · exact .inr (Decidable.not_not.mp other)
      · exact .inl (Decidable.not_not.mp out)
    · intro refused
      exact ⟨rfl, rfl⟩

theorem first_read (first : c.endpoints.head? = some e) (front : c.front.length = 27) :
    (d.loaded c).conf 29 = e.address ∧ (d.loaded c).conf 30 = e.attributes ∧
      (d.loaded c).conf 31 = e.packetLow ∧ (d.loaded c).conf 32 = e.packetHigh := by
  obtain ⟨rest, endpoints⟩ := List.head?_eq_some_iff.mp first
  have behind : ∀ (i : Nat) (inside : i < 7), (c.bytes.take 34)[27 + i]? =
      (e.bytes ++ rest.flatMap Endpoint.bytes)[i]? := by
    intro i inside
    rw [List.getElem?_take_of_lt (by omega), ConfigDescriptor.bytes, endpoints,
      List.flatMap_cons, List.getElem?_append_right (by omega), front, Nat.add_sub_cancel_left]
  have read : ∀ (i : Nat) (inside : i < 7) b,
      (e.bytes ++ rest.flatMap Endpoint.bytes)[i]? = some b →
        (d.loaded c).conf (27 + i) = b := by
    intro i inside b entry
    rw [Driver.conf, dif_pos (by omega)]
    change ((c.bytes.take 34)[27 + i]?).getD _ = b
    rw [behind i inside, entry, Option.getD_some]
  exact ⟨read 2 (by decide) _ rfl, read 3 (by decide) _ rfl, read 4 (by decide) _ rfl,
    read 5 (by decide) _ rfl⟩

theorem extracts_behind (first : c.endpoints.head? = some e) (front : c.front.length = 27)
    (fits : e.bytes.length = 7) : Coincides d c ↔
      ¬ (e.isIn = true ∧ (e.transfer = .isochronous ∨ e.transfer = .bulk)) := by
  obtain ⟨address, attributes, low, high⟩ := first_read d first front
  unfold Coincides ConfigDescriptor.endpoint
  dsimp only
  rw [first, Option.filter_some, address, attributes, low, high, e.attributes_transfer]
  have out : e.address &&& 0x80 = 0 ↔ ¬ e.isIn = true := by
    rw [← e.address_isIn, Decidable.not_not]
  by_cases interruptIn : e.InterruptIn
  · rw [if_pos (decide_eq_true ⟨by omega, interruptIn⟩), interruptIn.1]
    constructor
    · rintro - ⟨-, other | other⟩ <;> cases other
    · intro other
      exact ⟨rfl, by decide, rfl⟩
  · have refused : ¬ (c.front.length + e.bytes.length ≤ 34 ∧ e.InterruptIn) :=
      fun accepted => interruptIn accepted.2
    rw [if_neg (by rwa [decide_eq_true_iff])]
    dsimp only
    rw [out, Decidable.not_and_iff_or_not]
    apply or_congr_right'
    intro isIn
    apply Transfer.code_control
    intro interrupt
    exact interruptIn ⟨interrupt, Decidable.not_not.mp isIn⟩

/-- The first endpoint is extracted or refused as it should be exactly if the bytes read
coincide with it; right behind 27 bytes, exactly if it is no isochronous or bulk IN one. -/
theorem extracts_iff : (Extracts nakTout d c ↔ Coincides d c) ∧
    ∀ e, c.endpoints.head? = some e → c.front.length = 27 → e.bytes.length = 7 →
      (Extracts nakTout d c ↔
        ¬ (e.isIn = true ∧ (e.transfer = .isochronous ∨ e.transfer = .bulk))) := by
  have whole : Extracts nakTout d c ↔ Coincides d c := by
    cases found : c.endpoint with
    | none => exact extracts_none nakTout d found
    | some e => exact extracts_found nakTout d found
  refine ⟨whole, fun e first front fits => ?_⟩
  exact whole.trans (extracts_behind d first front fits)

end Layout

/-- A device with one class descriptor of nine bytes and an IN endpoint of packets of
eight bytes. -/
def single (transfer : Transfer) : ConfigDescriptor where
  configuration := ⟨2, [34, 0, 1, 1, 0, 0xa0, 50], by decide⟩
  interface := ⟨4, [0, 0, 1, 0xff, 0, 0, 0], by decide⟩
  classes := [⟨0x21, [0x11, 0x01, 0x00, 0x01, 0x22, 0x3f, 0x00], by decide⟩]
  endpoints := [⟨1, true, transfer, 0, 8, 0, [10], by decide, by decide⟩]
  configuration_type := rfl
  configuration_length := rfl
  interface_type := rfl
  interface_length := rfl
  classes_type := by decide

theorem bulk_extracted : (extractTdevEpDesc (usbStd 1) (Driver.initial.loaded (single .bulk))).1 =
    .noError ∧ ¬ Extracts 1 .initial (single .bulk) := by
  refine ⟨by decide, fun extracts => ?_⟩
  exact absurd extracts.1 (by decide)

end MultiZone.Usb
