import MultiZone.Message
import MultiZone.Transition.Preemption
import MultiZone.Transition.Queue

/-! The receive buffer of zone 2. The UART interrupt appends what it has read;
readline takes one byte at a time with interrupts masked and starts the buffer
anew when it has caught up. -/
namespace MultiZone.Uart
open Transition

def bufferSize : Nat := 32

structure Buffer where
  data : List Byte
  r : Int
  w : Int
  size : data.length = bufferSize

namespace Buffer

def empty : Buffer := ⟨List.replicate bufferSize 0, 0, 0, List.length_replicate⟩

/-- `data[i]`; none outside the array. -/
def get (b : Buffer) (i : Int) : Option Byte := if i < 0 then none else b.data[i.toNat]?

/-- `memcpy(&data[w], temp, count)`; none outside the array. -/
def memcpy (b : Buffer) (temp : List Byte) (count : Int) : Option Buffer :=
  if h : 0 ≤ b.w ∧ 0 ≤ count ∧ count ≤ temp.length ∧ b.w + count ≤ bufferSize then
    some { b with
      data := b.data.take b.w.toNat ++ temp.take count.toNat ++ b.data.drop (b.w + count).toNat
      size := by
        have size := b.size
        simp only [List.length_append, List.length_take, List.length_drop]
        omega }
  else none

def isEmpty (b : Buffer) : Bool := b.w == 0

def waiting (b : Buffer) : List Byte := (b.data.drop b.r.toNat).take (b.w - b.r).toNat

end Buffer

/-- What `read(0, &temp, sizeof temp)` leaves in temp: no byte up to eight. -/
abbrev Temp : Type := { bytes : List Byte // bytes.length ≤ 8 }

def uartIsr (b : Buffer) (temp : Temp) : Option Buffer :=
  let count : Int := temp.val.length
  if count > 0 then
    let count := min count (bufferSize - b.w)
    (b.memcpy temp.val count).map fun b => { b with w := b.w + count }
  else some b

/-- The next statement of readline's loop; the argument is the byte fetched. -/
inductive Pc where
  | test
  | mask
  | fetch
  | reset (c : Byte)
  | unmask (c : Byte)
  | process (c : Byte)
  deriving DecidableEq

/-- Between the clearing and the setting of MIE in mstatus. -/
def Pc.masked : Pc → Bool
  | .fetch | .reset _ | .unmask _ => true
  | .test | .mask | .process _ => false

inductive Next where
  | goto (pc : Pc)
  | ret (eol : Bool)

def Next.resume : Next → Option Pc
  | .goto pc => some pc
  | .ret _ => none

/-- The last two fields are the history: the bytes the interrupt has kept and
those readline has fetched. -/
structure Mem where
  buffer : Buffer
  accepted : List Byte
  fetched : List Byte

def Mem.initial : Mem := ⟨.empty, [], []⟩

/-- One statement of readline. What it does with a byte concerns the buffer only
in that a carriage return ends the line. -/
def readline (pc : Pc) (m : Mem) : Option (Next × Mem) :=
  match pc with
  | .test => some (if m.buffer.w > m.buffer.r then .goto .mask else .ret false, m)
  | .mask => some (.goto .fetch, m)
  | .fetch =>
    (m.buffer.get m.buffer.r).map fun c =>
      (.goto (.reset c), { m with
        buffer := { m.buffer with r := m.buffer.r + 1 }
        fetched := m.fetched ++ [c] })
  | .reset c =>
    some (.goto (.unmask c),
      if m.buffer.r ≥ m.buffer.w then { m with buffer := { m.buffer with r := 0, w := 0 } } else m)
  | .unmask c => some (.goto (.process c), m)
  | .process c => some (if c = 13 then .ret true else .goto .test, m)

def kept (b : Buffer) (temp : Temp) : List Byte :=
  temp.val.take (min (temp.val.length : Int) (bufferSize - b.w)).toNat

def Mem.receive (m : Mem) (temp : Temp) : Option Mem :=
  (uartIsr m.buffer temp).map fun b =>
    { m with buffer := b, accepted := m.accepted ++ kept m.buffer temp }

/-- readline is called again and again; none is the rest of the main loop. -/
def program : Program (Option Pc) Mem Unit Temp where
  entry := none
  memory := .initial
  statement _ pc m :=
    match pc with
    | none => some ⟨some .test, m⟩
    | some pc => (readline pc m).map fun r => ⟨r.1.resume, r.2⟩
  interrupt temp pc m := if pc.any Pc.masked then none else m.receive temp

theorem window_append {α : Type} (data new : List α) {r w : Nat} (h : r ≤ w)
    (fits : w + new.length ≤ data.length) :
    ((data.take w ++ new ++ data.drop (w + new.length)).drop r).take (w + new.length - r) =
      (data.drop r).take (w - r) ++ new := by
  have inside : r ≤ (data.take w ++ new).length := by
    simp only [List.length_append, List.length_take]
    omega
  have before : r ≤ (data.take w).length := by
    rw [List.length_take]
    omega
  rw [List.drop_append_of_le_length inside, List.drop_append_of_le_length before, List.drop_take]
  apply List.take_left'
  simp only [List.length_append, List.length_take, List.length_drop]
  omega

structure Bounded (b : Buffer) : Prop where
  start : 0 ≤ b.r
  order : b.r ≤ b.w
  fits : b.w ≤ bufferSize

theorem kept_length {b : Buffer} (temp : Temp) (fits : b.w ≤ bufferSize) :
    ((kept b temp).length : Int) = min (temp.val.length : Int) (bufferSize - b.w) := by
  rw [kept, List.length_take]
  omega

theorem uartIsr_spec {b : Buffer} (temp : Temp) (h : Bounded b) :
    ∃ b', uartIsr b temp = some b' ∧ b'.r = b.r ∧ b'.w = b.w + (kept b temp).length ∧
      b'.waiting = b.waiting ++ kept b temp := by
  have length := kept_length temp h.fits
  obtain ⟨start, order, fits⟩ := h
  unfold uartIsr
  dsimp only
  split
  · have room : 0 ≤ b.w ∧ 0 ≤ min (temp.val.length : Int) (bufferSize - b.w) ∧
        min (temp.val.length : Int) (bufferSize - b.w) ≤ temp.val.length ∧
        b.w + min (temp.val.length : Int) (bufferSize - b.w) ≤ bufferSize := by omega
    rw [Buffer.memcpy, dif_pos room]
    refine ⟨_, rfl, rfl, by rw [length], ?_⟩
    simp only [Buffer.waiting]
    have size := b.size
    have window := window_append b.data (kept b temp) (r := b.r.toNat)
      (w := b.w.toNat) (by omega) (by omega)
    have ends : (b.w + min (temp.val.length : Int) (bufferSize - b.w)).toNat =
        b.w.toNat + (kept b temp).length := by omega
    have span : (b.w + min (temp.val.length : Int) (bufferSize - b.w) - b.r).toNat =
        b.w.toNat + (kept b temp).length - b.r.toNat := by omega
    have before : (b.w - b.r).toNat = b.w.toNat - b.r.toNat := by omega
    rw [ends, span, before, ← window]
    rfl
  · rename_i none_read
    have nothing : (kept b temp).length = 0 := by omega
    refine ⟨b, rfl, rfl, by omega, ?_⟩
    rw [List.length_eq_zero_iff.mp nothing, List.append_nil]

theorem get_spec {b : Buffer} (h : Bounded b) (more : b.r < b.w) :
    ∃ c, b.get b.r = some c ∧
      b.waiting = c :: Buffer.waiting { b with r := b.r + 1 } := by
  obtain ⟨start, order, fits⟩ := h
  have size := b.size
  have inside : b.r.toNat < b.data.length := by omega
  refine ⟨b.data[b.r.toNat], ?_, ?_⟩
  · rw [Buffer.get, if_neg (by omega), List.getElem?_eq_getElem inside]
  · have next : (b.r + 1).toNat = b.r.toNat + 1 := by omega
    have span : (b.w - b.r).toNat = (b.w - (b.r + 1)).toNat + 1 := by omega
    rw [Buffer.waiting, Buffer.waiting, next, span, List.drop_eq_getElem_cons inside,
      List.take_succ_cons]

/-- Where readline has caught up it starts the buffer anew. -/
def Place (b : Buffer) : Option Pc → Prop
  | some .mask | some .fetch => b.r < b.w
  | some (.reset _) => True
  | none | some .test | some (.unmask _) | some (.process _) => b.r < b.w ∨ b.r = 0 ∧ b.w = 0

def At (pc : Option Pc) (m : Mem) : Prop := Bounded m.buffer ∧ Place m.buffer pc

theorem receive_at {pc : Option Pc} {m : Mem} (temp : Temp) (h : At pc m) :
    ∃ m', m.receive temp = some m' ∧ At pc m' ∧ m'.fetched = m.fetched ∧
      m'.accepted = m.accepted ++ kept m.buffer temp ∧
      m'.buffer.waiting = m.buffer.waiting ++ kept m.buffer temp := by
  obtain ⟨bounded, place⟩ := h
  obtain ⟨b', run, r, w, waiting⟩ := uartIsr_spec temp bounded
  have length := kept_length temp bounded.fits
  have start := bounded.start
  have order := bounded.order
  have fits := bounded.fits
  have runs : m.receive temp =
      some { m with buffer := b', accepted := m.accepted ++ kept m.buffer temp } := by
    rw [Mem.receive, run]
    rfl
  have bounded' : Bounded b' := ⟨by omega, by omega, by omega⟩
  refine ⟨_, runs, ⟨bounded', ?_⟩, rfl, rfl, waiting⟩
  cases pc with
  | none =>
    simp only [Place] at place ⊢
    omega
  | some pc =>
    cases pc with
    | reset c => trivial
    | test | mask | fetch | unmask c | process c =>
      simp only [Place] at place ⊢
      omega

def Mem.queue (m : Mem) : Queue Byte := ⟨m.buffer.waiting, m.accepted, m.fetched⟩

theorem waiting_of_eq {b : Buffer} (caught_up : b.r = b.w) : b.waiting = [] := by
  rw [Buffer.waiting, caught_up, Int.sub_self]
  rfl

theorem readline_spec {pc : Pc} {m : Mem} (h : At (some pc) m) :
    ∃ next m', readline pc m = some (next, m') ∧ At next.resume m' ∧
      (pc ≠ .fetch → m'.queue = m.queue) ∧
      (pc = .fetch → (Queue.machine Byte).step m.queue .take = some m'.queue) := by
  obtain ⟨bounded, place⟩ := h
  cases pc with
  | test =>
    by_cases more : m.buffer.w > m.buffer.r
    · exact ⟨.goto .mask, m, by rw [readline, if_pos more], ⟨bounded, more⟩, fun _ => rfl,
        fun fetch => by cases fetch⟩
    · exact ⟨.ret false, m, by rw [readline, if_neg more], ⟨bounded, place⟩, fun _ => rfl,
        fun fetch => by cases fetch⟩
  | mask => exact ⟨_, m, rfl, ⟨bounded, place⟩, fun _ => rfl, fun fetch => by cases fetch⟩
  | unmask c => exact ⟨_, m, rfl, ⟨bounded, place⟩, fun _ => rfl, fun fetch => by cases fetch⟩
  | process c =>
    by_cases ends : c = 13
    · exact ⟨.ret true, m, by rw [readline, if_pos ends], ⟨bounded, place⟩, fun _ => rfl,
        fun fetch => by cases fetch⟩
    · exact ⟨.goto .test, m, by rw [readline, if_neg ends], ⟨bounded, place⟩, fun _ => rfl,
        fun fetch => by cases fetch⟩
  | fetch =>
    obtain ⟨c, got, waiting⟩ := get_spec bounded place
    have run : readline .fetch m = some (.goto (.reset c), { m with
        buffer := { m.buffer with r := m.buffer.r + 1 }
        fetched := m.fetched ++ [c] }) := by
      rw [readline, got]
      rfl
    refine ⟨_, _, run, ⟨⟨?_, ?_, bounded.fits⟩, trivial⟩, fun other => absurd rfl other, fun _ => ?_⟩
    · have start := bounded.start
      dsimp only
      omega
    · exact place
    · simp only [Queue.machine, Mem.queue, waiting]
  | reset c =>
    by_cases caught_up : m.buffer.r ≥ m.buffer.w
    · have eq : m.buffer.r = m.buffer.w := Int.le_antisymm bounded.order caught_up
      refine ⟨.goto (.unmask c), _, by rw [readline, if_pos caught_up],
        ⟨⟨Int.le_refl 0, Int.le_refl 0, Int.natCast_nonneg _⟩, .inr ⟨rfl, rfl⟩⟩, fun _ => ?_,
        fun fetch => by cases fetch⟩
      simp only [Mem.queue, waiting_of_eq eq]
      rfl
    · exact ⟨.goto (.unmask c), m, by rw [readline, if_neg caught_up],
        ⟨bounded, .inl (Int.not_le.mp caught_up)⟩, fun _ => rfl, fun fetch => by cases fetch⟩

/-- A fetch takes a byte from the queue; an interrupt puts those it keeps there. -/
def label (p : Point (Option Pc) Mem) : Turn Unit Temp → Option (QueueOp Byte)
  | .statement _ => if p.pc = some .fetch then some .take else none
  | .interrupt temp => some (.put (kept p.mem.buffer temp))

theorem outline : program.Outline (fun _ _ => True) At where
  enter := ⟨⟨Int.le_refl 0, Int.le_refl 0, by decide⟩, .inr ⟨rfl, rfl⟩⟩
  advance _ pc m next h _ hs := by
    cases pc with
    | none =>
      cases Option.some.inj hs
      exact h
    | some pc =>
      obtain ⟨after, m', run, ok, -⟩ := readline_spec h
      simp only [program, run] at hs
      cases Option.some.inj hs
      exact ok
  stable temp pc m m' h _ hs := by
    simp only [program] at hs
    split at hs
    · cases hs
    · obtain ⟨m₁, run, ok, -⟩ := receive_at temp h
      cases Option.some.inj (run.symm.trans hs)
      exact ok

/-- Every interleaving of the interrupt with readline is a run of the queue. -/
theorem uart_refines_queue {turns : List (Turn Unit Temp)} {p : Point (Option Pc) Mem}
    (hr : program.machine.run program.machine.initial turns = some p) :
    ∃ ops, (Queue.machine Byte).run (Queue.machine Byte).initial ops = some p.mem.queue := by
  have keep := outline.keep
  refine simulation (m := program.machine) (n := Queue.machine Byte) (fun p => p.mem.queue) label
    (fun p a q h hs => keep p a q h trivial hs) ?_ ?_ outline.enter hr
  · intro p a q h hs quiet
    cases a with
    | interrupt temp => cases quiet
    | statement u =>
      obtain ⟨pc, m⟩ := p
      cases pc with
      | none =>
        cases Option.some.inj hs
        rfl
      | some pc =>
        obtain ⟨next, m', run, -, same, -⟩ := readline_spec h
        simp only [Program.machine, program, run] at hs
        cases Option.some.inj hs
        refine same fun fetch => ?_
        simp [label, fetch] at quiet
  · intro p a q op h hs hl
    obtain ⟨pc, m⟩ := p
    cases a with
    | interrupt temp =>
      cases Option.some.inj hl
      obtain ⟨mem, hm, rfl⟩ := Option.map_eq_some_iff.mp hs
      simp only [program] at hm
      split at hm
      · cases hm
      · obtain ⟨m', run, -, fetched, accepted, waiting⟩ := receive_at temp h
        cases Option.some.inj (run.symm.trans hm)
        simp only [Queue.machine, Mem.queue, fetched, accepted, waiting]
    | statement u =>
      cases pc with
      | none => cases hl
      | some pc =>
        obtain ⟨next, m', run, -, -, taken⟩ := readline_spec h
        simp only [Program.machine, program, run] at hs
        cases Option.some.inj hs
        simp only [label, Option.some.injEq] at hl
        split at hl
        · rename_i fetch
          cases Option.some.inj hl
          exact taken fetch
        · cases hl

/-- Outside the masked section the indices are in order and start anew when
readline has caught up; no access leaves the array; and what was fetched and what
waits is what was accepted. -/
theorem uart_fifo {turns : List (Turn Unit Temp)} {p : Point (Option Pc) Mem}
    (hr : program.machine.run program.machine.initial turns = some p) :
    let b := p.mem.buffer
    (p.pc.any Pc.masked = false →
      0 ≤ b.r ∧ b.r ≤ b.w ∧ b.w ≤ 32 ∧ (b.r < b.w ∨ b.r = 0 ∧ b.w = 0)) ∧
      (p.pc = some .fetch → 0 ≤ b.r ∧ b.r < 32) ∧
      (∀ temp : Temp, p.pc.any Pc.masked = false → 0 ≤ b.w ∧
        0 ≤ min (temp.val.length : Int) (32 - b.w) ∧
        b.w + min (temp.val.length : Int) (32 - b.w) ≤ 32) ∧
      (∀ u, (program.statement u p.pc p.mem).isSome) ∧
      (∀ temp, p.pc.any Pc.masked = false → (program.interrupt temp p.pc p.mem).isSome) ∧
      p.mem.fetched ++ b.waiting = p.mem.accepted := by
  obtain ⟨pc, m⟩ := p
  have h : At pc m := outline.always hr
  have start := h.1.start
  have order := h.1.order
  have fits : m.buffer.w ≤ 32 := h.1.fits
  obtain ⟨ops, hq⟩ := uart_refines_queue hr
  have balanced := Queue.run_balanced hq
  refine ⟨fun unmasked => ⟨start, order, fits, ?_⟩, ?_, fun temp _ => by dsimp only; omega, ?_, ?_,
    balanced.symm⟩
  · cases pc with
    | none => exact h.2
    | some pc =>
      cases pc with
      | test | process c => exact h.2
      | mask => exact .inl h.2
      | fetch | reset c | unmask c => cases unmasked
  · intro fetch
    dsimp only at fetch
    subst fetch
    have more : m.buffer.r < m.buffer.w := h.2
    dsimp only
    omega
  · intro u
    cases pc with
    | none => rfl
    | some pc =>
      obtain ⟨next, m', run, -⟩ := readline_spec h
      simp only [program, run]
      rfl
  · intro temp unmasked
    obtain ⟨m', run, -⟩ := receive_at temp h
    dsimp only at unmasked ⊢
    simp only [program, unmasked, run]
    rfl

/-- Three bytes arrive in one interrupt; readline stops behind the carriage return. -/
def typedAhead : List (Turn Unit Temp) :=
  .interrupt ⟨[97, 13, 98], by decide⟩ :: List.replicate 13 (.statement ())

theorem uart_fifo_typedAhead :
    ∃ p, program.machine.run program.machine.initial typedAhead = some p ∧ p.pc = none ∧
      p.mem.fetched = [97, 13] ∧ p.mem.buffer.waiting = [98] ∧
      p.mem.fetched ++ p.mem.buffer.waiting = p.mem.accepted := by
  refine ⟨_, rfl, rfl, rfl, rfl, ?_⟩
  have run : program.machine.run program.machine.initial typedAhead = some _ := rfl
  exact (uart_fifo run).2.2.2.2.2

/-- The program, and as history how many bytes had been accepted when readline
last started the buffer anew. -/
structure Tracked where
  point : Point (Option Pc) Mem
  base : Nat

def restarts (p : Point (Option Pc) Mem) : Turn Unit Temp → Bool
  | .interrupt _ => false
  | .statement _ =>
    match p.pc with
    | some (.reset _) => p.mem.buffer.r ≥ p.mem.buffer.w
    | _ => false

def tracked : Machine Tracked (Turn Unit Temp) where
  initial := ⟨program.machine.initial, 0⟩
  step s turn := (program.machine.step s.point turn).map fun next =>
    ⟨next, if restarts s.point turn then s.point.mem.accepted.length else s.base⟩

/-- The space in use is what has been accepted since, fetched or not. -/
def Filled (s : Tracked) : Prop :=
  At s.point.pc s.point.mem ∧ s.point.mem.buffer.w + s.base = s.point.mem.accepted.length

theorem readline_fills {pc : Pc} {m m' : Mem} {next : Next} {u : Unit}
    (run : readline pc m = some (next, m')) : m'.accepted = m.accepted ∧
      m'.buffer.w = if restarts ⟨some pc, m⟩ (.statement u) then 0 else m.buffer.w := by
  cases pc with
  | fetch =>
    obtain ⟨c, -, eq⟩ := Option.map_eq_some_iff.mp run
    cases eq
    exact ⟨rfl, rfl⟩
  | reset c =>
    simp only [readline, Option.some.injEq, Prod.mk.injEq] at run
    obtain ⟨-, rfl⟩ := run
    simp only [restarts, decide_eq_true_eq]
    split <;> exact ⟨rfl, rfl⟩
  | test | mask | unmask c | process c =>
    cases run
    exact ⟨rfl, rfl⟩

theorem receive_fills {pc : Option Pc} {m m' : Mem} {temp : Temp} (h : At pc m)
    (run : m.receive temp = some m') :
    m'.accepted.length + m.buffer.w = m.accepted.length + m'.buffer.w ∧
      (m'.accepted.length < m.accepted.length + temp.val.length → m'.buffer.w = bufferSize) := by
  obtain ⟨b', runs, -, w, -⟩ := uartIsr_spec temp h.1
  have length := kept_length temp h.1.fits
  rw [Mem.receive, runs] at run
  cases Option.some.inj run
  simp only [List.length_append, Int.natCast_add]
  refine ⟨?_, fun discards => ?_⟩
  · omega
  · omega

theorem filled_step (s : Tracked) (turn : Turn Unit Temp) (t : Tracked) (h : Filled s)
    (hs : tracked.step s turn = some t) : Filled t := by
  obtain ⟨next, hn, rfl⟩ := Option.map_eq_some_iff.mp hs
  obtain ⟨⟨pc, m⟩, base⟩ := s
  refine ⟨outline.keep ⟨pc, m⟩ turn next h.1 trivial hn, ?_⟩
  have filled : m.buffer.w + base = m.accepted.length := h.2
  cases turn with
  | interrupt temp =>
    obtain ⟨mem, hm, rfl⟩ := Option.map_eq_some_iff.mp hn
    simp only [program] at hm
    split at hm
    · cases hm
    · have fills : mem.accepted.length + m.buffer.w = m.accepted.length + mem.buffer.w :=
        (receive_fills h.1 hm).1
      change mem.buffer.w + (base : Int) = mem.accepted.length
      omega
  | statement u =>
    cases pc with
    | none =>
      cases Option.some.inj hn
      exact filled
    | some pc =>
      obtain ⟨⟨after, m'⟩, run, rfl⟩ := Option.map_eq_some_iff.mp hn
      obtain ⟨accepted, w⟩ := readline_fills (u := u) run
      dsimp only
      rw [accepted, w]
      cases restarts ⟨some pc, m⟩ (.statement u) with
      | true => exact Int.zero_add _
      | false => exact filled

theorem filled {turns : List (Turn Unit Temp)} {s : Tracked}
    (hr : tracked.run tracked.initial turns = some s) : Filled s :=
  Machine.invariant filled_step ⟨outline.enter, rfl⟩ hr

/-- The interrupt discards a byte only if 32 have been accepted since readline
last caught up and started the buffer anew. -/
theorem discards_when_filled {turns : List (Turn Unit Temp)} {temp : Temp} {s t : Tracked}
    (hr : tracked.run tracked.initial turns = some s)
    (hs : tracked.step s (.interrupt temp) = some t)
    (discards : t.point.mem.accepted.length < s.point.mem.accepted.length + temp.val.length) :
    t.point.mem.accepted.length = t.base + 32 := by
  have before := filled hr
  have after := filled_step s _ t before hs
  obtain ⟨next, hn, rfl⟩ := Option.map_eq_some_iff.mp hs
  obtain ⟨mem, hm, rfl⟩ := Option.map_eq_some_iff.mp hn
  simp only [program] at hm
  split at hm
  · cases hm
  · have full : mem.buffer.w = 32 := (receive_fills before.1 hm).2 discards
    have count := after.2
    dsimp only at count ⊢
    omega

/-- The buffer is filled by five interrupts, between which readline fetches one byte. -/
def oneFetched : List (Turn Unit Temp) :=
  List.replicate 3 (.interrupt ⟨List.replicate 8 97, by decide⟩) ++
    List.replicate 6 (.statement ()) ++ [.interrupt ⟨List.replicate 8 97, by decide⟩]

theorem oneFetched_discards :
    ∃ s t, tracked.run tracked.initial oneFetched = some s ∧
      tracked.step s (.interrupt ⟨[98], by decide⟩) = some t ∧
      t.point.mem.accepted.length < s.point.mem.accepted.length + 1 ∧
      t.point.mem.accepted.length = t.base + 32 := by
  refine ⟨_, _, rfl, rfl, ?_, ?_⟩
  · decide
  · exact @discards_when_filled oneFetched ⟨[98], _⟩ _ _ rfl rfl (by decide)

theorem oneFetched_notFull :
    ∃ p q, program.machine.run program.machine.initial oneFetched = some p ∧
      program.machine.step p (.interrupt ⟨[98], by decide⟩) = some q ∧
      q.mem.accepted = p.mem.accepted ∧ p.mem.fetched.length = 1 ∧
      p.mem.buffer.waiting.length = 31 :=
  ⟨_, _, rfl, rfl, rfl, rfl, rfl⟩

end MultiZone.Uart
