import MultiZone.Message
import MultiZone.Transition.Machine
import Mathlib.Data.List.FinRange
import Mathlib.Data.List.Infix
import Mathlib.Logic.Function.Basic

/-! The inbox of zone 2: msi_isr appends the 16-byte blocks that arrive from a
zone to that zone's buffer, and msg_handler acts on a buffer once it holds a
terminated text and then takes it for empty. -/
namespace MultiZone.Reassembly
open Transition

/-- INBOX_SIZE: four blocks of MSG_SIZE. -/
def inboxSize : Nat := 64

structure Inbox where
  msg : List Byte
  len : Nat
  size : msg.length = inboxSize
  fits : len ≤ inboxSize
  whole : 16 ∣ len

namespace Inbox

def empty : Inbox :=
  ⟨List.replicate inboxSize 0, 0, List.length_replicate, Nat.zero_le _, ⟨0, rfl⟩⟩

def offset (i : Inbox) : Nat := if i.len ≥ inboxSize then 0 else i.len

theorem offset_room (i : Inbox) : i.offset + 16 ≤ inboxSize := by
  have fits := i.fits
  obtain ⟨k, hk⟩ := i.whole
  unfold offset inboxSize at *
  split <;> omega

theorem offset_whole (i : Inbox) : 16 ∣ i.offset := by
  unfold offset
  split
  · exact ⟨0, rfl⟩
  · exact i.whole

def receive (i : Inbox) (m : Message) : Inbox where
  msg := i.msg.take i.offset ++ m.bytes ++ i.msg.drop (i.offset + 16)
  len := i.offset + 16
  size := by
    have room := i.offset_room
    simp only [List.length_append, List.length_take, List.length_drop, i.size, m.size]
    omega
  fits := i.offset_room
  whole := Nat.dvd_add i.offset_whole ⟨1, rfl⟩

def reset (i : Inbox) : Inbox := { i with len := 0, fits := Nat.zero_le _, whole := ⟨0, rfl⟩ }

def held (i : Inbox) : List Byte := i.msg.take i.len

theorem held_length (i : Inbox) : i.held.length = i.len := by
  rw [held, List.length_take, i.size, Nat.min_eq_left i.fits]

theorem held_eq_nil (i : Inbox) : i.held = [] ↔ i.len = 0 := by
  rw [← List.length_eq_zero_iff, held_length]

@[simp] theorem held_empty : empty.held = [] := rfl

@[simp] theorem held_reset (i : Inbox) : i.reset.held = [] := List.take_zero

theorem held_receive (i : Inbox) (m : Message) :
    (i.receive m).held = i.msg.take i.offset ++ m.bytes := by
  have room := i.offset_room
  refine List.take_left' ?_
  rw [List.length_append, List.length_take, i.size, m.size, Nat.min_eq_left (by omega)]
  rfl

theorem held_receive_iff (i : Inbox) (m : Message) :
    (i.receive m).held = i.held ++ m.bytes ↔ i.len < inboxSize := by
  rw [held_receive, List.append_left_inj]
  constructor
  · intro h
    have lengths := congrArg List.length h
    rw [held_length, List.length_take, i.size, offset] at lengths
    have fits := i.fits
    split at lengths
    · rw [Nat.zero_min] at lengths
      unfold inboxSize at *
      omega
    · omega
  · intro room
    rw [offset, if_neg (Nat.not_le_of_lt room)]
    rfl

end Inbox

def strnlen (mem : List Byte) (maxlen : Nat) : Nat := (cstring (mem.take maxlen)).length

/-- The string msg_handler acts on, if it acts on this buffer at all. -/
def Inbox.complete (i : Inbox) : Option (List Byte) :=
  let len := strnlen i.msg i.len
  if len > 0 ∧ len ≠ i.len then some (cstring i.msg) else none

theorem Inbox.complete_eq_some {i : Inbox} {text : List Byte} (h : i.complete = some text) :
    cstring i.held = text ∧ text ≠ [] ∧ text.length < i.held.length := by
  have whole : i.held ++ i.msg.drop i.len = i.msg := List.take_append_drop i.len i.msg
  have le : strnlen i.msg i.len ≤ i.len :=
    (List.takeWhile_prefix _).length_le.trans (by rw [List.length_take]; exact Nat.min_le_left _ _)
  unfold Inbox.complete at h
  dsimp only at h
  split at h
  · rename_i guard
    have ends : (cstring i.held).length < i.held.length := by
      rw [i.held_length]
      exact Nat.lt_of_le_of_ne le guard.2
    have same : cstring i.msg = cstring i.held := whole ▸ cstring_append _ ends
    rw [same] at h
    obtain rfl := Option.some.inj h
    exact ⟨rfl, List.ne_nil_of_length_pos guard.1, ends⟩
  · cases h

def restartText : List Byte := ascii ['r', 'e', 's', 't', 'a', 'r', 't']

structure Zones where
  inbox : Fin 8 → Inbox
  acted : Fin 8 → List (List Byte)

/-- The loop of msg_handler from some zone on. A restart does not return; the
bss, with the buffers in it, is cleared before main runs anew. -/
def visit (s : Zones) : List (Fin 8) → Zones
  | [] => s
  | zone :: rest =>
    match (s.inbox zone).complete with
    | none => visit s rest
    | some msg =>
      let acted := Function.update s.acted zone (s.acted zone ++ [msg])
      if msg = restartText then ⟨fun _ => .empty, acted⟩
      else visit ⟨Function.update s.inbox zone (s.inbox zone).reset, acted⟩ rest

def msgHandler (s : Zones) : Zones := visit s (List.finRange 8)

structure Text where
  chars : List Byte
  nonempty : chars ≠ []
  short : chars.length ≤ 63
  noNul : 0 ∉ chars

def blocksFrom : Nat → List Byte → List Message
  | 0, _ => []
  | n + 1, cs => .ofText cs :: blocksFrom n (cs.drop 16)

/-- The consecutive blocks of a text, the last of them filled up with NULs. -/
def blocks (cs : List Byte) : List Message := blocksFrom (cs.length / 16 + 1) cs

def encode (cs : List Byte) : List Byte := (blocks cs).flatMap Message.bytes

/-- Zone 2 with the blocks one zone has still to send and those it has sent. -/
structure Zone2 where
  zones : Zones
  outbox : List Message
  received : List Message

inductive Zone2Turn where
  | msiIsr (recv : Fin 8 → Option Message)
  | msgHandler

def Zones.receive (s : Zones) (recv : Fin 8 → Option Message) : Zones :=
  { s with inbox := fun y => (recv y).elim (s.inbox y) (s.inbox y).receive }

/-- The sender is zone `z`, whose texts are given; the others send anything. -/
def zone2 (z : Fin 8) (texts : List Text) : Machine Zone2 Zone2Turn where
  initial := ⟨⟨fun _ => .empty, fun _ => []⟩, texts.flatMap fun t => blocks t.chars, []⟩
  step s
    | .msiIsr recv =>
      if recv z = none ∨ recv z = s.outbox.head? then
        some ⟨s.zones.receive recv, s.outbox.drop (recv z).toList.length,
          s.received ++ (recv z).toList⟩
      else none
    | .msgHandler => some { s with zones := msgHandler s.zones }

/-- The texts acted on are the first ones sent, and what else has arrived is
still in the buffer. -/
def Reassembled (z : Fin 8) (texts : List Text) (s : Zone2) : Prop :=
  s.zones.acted z <+: texts.map Text.chars ∧
    s.received.flatMap Message.bytes =
      (s.zones.acted z).flatMap encode ++ (s.zones.inbox z).held

def Restarts (inbox : Fin 8 → Inbox) (zone : Fin 8) : Prop :=
  (inbox zone).complete = some restartText

instance (inbox : Fin 8 → Inbox) (zone : Fin 8) : Decidable (Restarts inbox zone) :=
  inferInstanceAs (Decidable ((inbox zone).complete = some restartText))

/-- The string the handler's next pass acts on for a zone: it does not come to a
zone after one that restarts it. -/
def handled (inbox : Fin 8 → Inbox) (z : Fin 8) : Option (List Byte) :=
  if ∃ y, y < z ∧ Restarts inbox y then none else (inbox z).complete

/-- A block arrives when the buffer is not full; the handler runs when the
buffer holds one text and no more, or nothing in case of a restart. -/
def OneAtATime (z : Fin 8) (s : Zone2) : Zone2Turn → Prop
  | .msiIsr recv => recv z ≠ none → (s.zones.inbox z).len < inboxSize
  | .msgHandler =>
    match handled s.zones.inbox z with
    | some text => (s.zones.inbox z).len = 16 * (blocks text).length
    | none => (∃ y, Restarts s.zones.inbox y) → (s.zones.inbox z).len = 0

theorem blocksFrom_length (n : Nat) (cs : List Byte) : (blocksFrom n cs).length = n := by
  induction n generalizing cs with
  | zero => rfl
  | succ n ih => simp [blocksFrom, ih]

theorem blocksFrom_bytes (n : Nat) (cs : List Byte) :
    (blocksFrom n cs).flatMap Message.bytes =
      (cs ++ List.replicate (16 * n) 0).take (16 * n) := by
  induction n generalizing cs with
  | zero => rfl
  | succ n ih =>
    have head : (Message.ofText cs).bytes = (cs ++ List.replicate (16 * (n + 1)) 0).take 16 := by
      simp only [Message.ofText, List.take_append, List.take_replicate]
      congr 2
      omega
    have tail : (cs.drop 16 ++ List.replicate (16 * n) 0).take (16 * n) =
        ((cs ++ List.replicate (16 * (n + 1)) 0).drop 16).take (16 * n) := by
      simp only [List.drop_append, List.take_append, List.take_replicate, List.drop_replicate,
        List.length_drop]
      congr 2
      omega
    rw [blocksFrom, List.flatMap_cons, ih, head, tail, ← List.take_add]
    congr 1
    omega

theorem encode_eq (cs : List Byte) : ∃ n, encode cs = cs ++ 0 :: List.replicate n 0 := by
  refine ⟨16 * (cs.length / 16 + 1) - cs.length - 1, ?_⟩
  have room : cs.length < 16 * (cs.length / 16 + 1) := by omega
  rw [encode, blocks, blocksFrom_bytes, List.take_append, List.take_of_length_le room.le,
    List.take_replicate, ← List.replicate_succ]
  congr 2
  omega

theorem encode_length (cs : List Byte) : (encode cs).length = 16 * (blocks cs).length := by
  have room : cs.length < 16 * (cs.length / 16 + 1) := by omega
  rw [encode, blocks, blocksFrom_bytes, blocksFrom_length, List.length_take, List.length_append,
    List.length_replicate]
  omega

/-- Texts are told apart: a buffer at the front of a transmission that holds a
terminated string holds the first text, and exactly that if it is as long. -/
theorem first_text {texts : List Text} {buf : List Byte}
    (front : buf <+: (texts.map Text.chars).flatMap encode)
    (ends : (cstring buf).length < buf.length) :
    ∃ t rest, texts = t :: rest ∧ cstring buf = t.chars ∧
      (buf = encode t.chars ↔ buf.length = (encode t.chars).length) := by
  cases texts with
  | nil =>
    have none_held : buf = [] := List.prefix_nil.mp front
    simp [none_held] at ends
  | cons t rest =>
    rw [List.map_cons, List.flatMap_cons] at front
    refine ⟨t, rest, rfl, ?_, congrArg _, fun same => ?_⟩
    -- the string ends before the buffer does, so it ends where the first text ends
    · obtain ⟨tail, htail⟩ := front
      obtain ⟨n, hn⟩ := encode_eq t.chars
      rw [← cstring_append tail ends, htail, hn, List.append_assoc, List.cons_append,
        cstring_terminated _ t.noNul]
    · have both := List.prefix_of_prefix_length_le front (List.prefix_append _ _) same.le
      exact both.eq_of_length same

def Reached (inbox : Fin 8 → Inbox) (zones : List (Fin 8)) (z : Fin 8) : Prop :=
  z ∈ zones ∧ ∀ y ∈ zones, y < z → ¬ Restarts inbox y

instance (inbox : Fin 8 → Inbox) (zones : List (Fin 8)) (z : Fin 8) :
    Decidable (Reached inbox zones z) :=
  inferInstanceAs (Decidable (z ∈ zones ∧ ∀ y ∈ zones, y < z → ¬ Restarts inbox y))

section Pass

variable {s : Zones} {y z : Fin 8} {rest : List (Fin 8)}

theorem reached_head (first : ∀ x ∈ rest, y < x) : Reached s.inbox (y :: rest) y := by
  refine ⟨List.mem_cons_self, fun x hx lt => ?_⟩
  rcases List.mem_cons.mp hx with rfl | hx
  · exact absurd lt (lt_irrefl x)
  · exact absurd lt (first x hx).not_gt

theorem reached_tail (first : ∀ x ∈ rest, y < x) (ne : z ≠ y) :
    Reached s.inbox (y :: rest) z ↔ ¬ Restarts s.inbox y ∧ Reached s.inbox rest z := by
  constructor
  · intro h
    have later := (List.mem_cons.mp h.1).resolve_left ne
    exact ⟨h.2 y List.mem_cons_self (first z later), later,
      fun x hx => h.2 x (List.mem_cons_of_mem y hx)⟩
  · intro h
    refine ⟨List.mem_cons_of_mem y h.2.1, fun x hx lt => ?_⟩
    rcases List.mem_cons.mp hx with rfl | hx
    · exact h.1
    · exact h.2.2 x hx lt

theorem restarts_update {i : Inbox} (ne : z ≠ y) :
    Restarts (Function.update s.inbox y i) z ↔ Restarts s.inbox z := by
  rw [Restarts, Function.update_of_ne ne, Restarts]

theorem reached_update {i : Inbox} (first : ∀ x ∈ rest, y < x) :
    Reached (Function.update s.inbox y i) rest z ↔ Reached s.inbox rest z :=
  and_congr_right fun _ => forall₂_congr fun x hx =>
    imp_congr_right fun _ => not_congr (restarts_update (first x hx).ne')

theorem reached_self (first : ∀ x ∈ rest, y < x) : ¬ Reached s.inbox rest y :=
  fun h => lt_irrefl y (first y h.1)

end Pass

theorem visit_cases (s : Zones) (y : Fin 8) (rest : List (Fin 8)) :
    ((s.inbox y).complete = none ∧ ¬ Restarts s.inbox y ∧ visit s (y :: rest) = visit s rest) ∨
    ∃ msg, (s.inbox y).complete = some msg ∧
      let acted := Function.update s.acted y (s.acted y ++ [msg])
      (Restarts s.inbox y ∧ visit s (y :: rest) = ⟨fun _ => .empty, acted⟩ ∨
        ¬ Restarts s.inbox y ∧ visit s (y :: rest) =
          visit ⟨Function.update s.inbox y (s.inbox y).reset, acted⟩ rest) := by
  unfold Restarts
  rw [visit]
  cases hc : (s.inbox y).complete with
  | none => exact .inl ⟨rfl, nofun, rfl⟩
  | some msg =>
    refine .inr ⟨msg, rfl, ?_⟩
    rcases Decidable.em (msg = restartText) with restart | other
    · exact .inl ⟨congrArg some restart, if_pos restart⟩
    · exact .inr ⟨fun same => other (Option.some.inj same), if_neg other⟩

theorem visit_acted {s : Zones} {zones : List (Fin 8)} (z : Fin 8)
    (order : zones.Pairwise (· < ·)) : (visit s zones).acted z = s.acted z ++
      if Reached s.inbox zones z then (s.inbox z).complete.toList else [] := by
  induction zones generalizing s with
  | nil => simp [visit, Reached]
  | cons y rest ih =>
    obtain ⟨first, order⟩ := List.pairwise_cons.mp order
    obtain ⟨hc, not_here, step⟩ | ⟨msg, hc, ⟨restart, step⟩ | ⟨not_here, step⟩⟩ :=
      visit_cases s y rest
    · rw [step, ih order]
      rcases Decidable.em (z = y) with rfl | hz
      · simp [hc]
      · simp [reached_tail first hz, not_here]
    · rw [step]
      rcases Decidable.em (z = y) with rfl | hz
      · simp [hc, reached_head first]
      · simp [reached_tail first hz, restart, hz]
    · rw [step, ih order]
      rcases Decidable.em (z = y) with rfl | hz
      · simp [reached_update first, reached_self first, reached_head first, hc]
      · simp [reached_update first, reached_tail first hz, not_here, hz]

theorem visit_held {s : Zones} {zones : List (Fin 8)} (z : Fin 8)
    (order : zones.Pairwise (· < ·)) : ((visit s zones).inbox z).held =
      if (∃ y ∈ zones, Restarts s.inbox y) ∨ z ∈ zones ∧ (s.inbox z).complete ≠ none then []
      else (s.inbox z).held := by
  induction zones generalizing s with
  | nil => simp [visit]
  | cons y rest ih =>
    obtain ⟨first, order⟩ := List.pairwise_cons.mp order
    obtain ⟨hc, not_here, step⟩ | ⟨msg, hc, ⟨restart, step⟩ | ⟨not_here, step⟩⟩ :=
      visit_cases s y rest
    · rw [step, ih order]
      rcases Decidable.em (z = y) with rfl | hz
      · simp [hc, not_here]
      · simp [hz, not_here]
    · simp [step, restart]
    · have later : (∃ x ∈ rest, Restarts (Function.update s.inbox y (s.inbox y).reset) x) ↔
          ∃ x ∈ rest, Restarts s.inbox x :=
        exists_congr fun x => and_congr_right fun hx => restarts_update (first x hx).ne'
      rw [step, ih order]
      simp only [later]
      rcases Decidable.em (z = y) with rfl | hz
      · simp [hc]
      · simp [not_here, hz]

theorem pass_order : (List.finRange 8).Pairwise (· < ·) := List.pairwise_lt_finRange 8

theorem reached_iff {inbox : Fin 8 → Inbox} {z : Fin 8} :
    Reached inbox (List.finRange 8) z ↔ ¬ ∃ y, y < z ∧ Restarts inbox y := by
  simp [Reached]

theorem msgHandler_acted (s : Zones) (z : Fin 8) :
    (msgHandler s).acted z = s.acted z ++ (handled s.inbox z).toList := by
  rw [msgHandler, visit_acted z pass_order, handled]
  by_cases h : ∃ y, y < z ∧ Restarts s.inbox y <;> simp [reached_iff, h]

theorem msgHandler_held (s : Zones) (z : Fin 8) : ((msgHandler s).inbox z).held =
    if (∃ y, Restarts s.inbox y) ∨ handled s.inbox z ≠ none then [] else (s.inbox z).held := by
  rw [msgHandler, visit_held z pass_order]
  by_cases h : ∃ y, Restarts s.inbox y
  · simp [h]
  · have reached : ¬ ∃ y, y < z ∧ Restarts s.inbox y := fun ⟨y, hy⟩ => h ⟨y, hy.2⟩
    simp [h, handled, reached]

def Sent (texts : List Text) (s : Zone2) : Prop :=
  s.received ++ s.outbox = (texts.map Text.chars).flatMap blocks

theorem sent_step {z : Fin 8} {texts : List Text} {s t : Zone2} {a : Zone2Turn}
    (h : Sent texts s) (hs : (zone2 z texts).step s a = some t) : Sent texts t := by
  cases a with
  | msgHandler => exact Option.some.inj hs ▸ h
  | msiIsr recv =>
    simp only [zone2] at hs
    split at hs
    · rename_i next
      obtain rfl := Option.some.inj hs
      unfold Sent at h ⊢
      rw [← h, List.append_assoc, List.append_cancel_left_eq]
      cases hr : recv z with
      | none => rfl
      | some m =>
        have head := next.resolve_left (by simp [hr])
        obtain ⟨rest, hrest⟩ := List.head?_eq_some_iff.mp (head.symm.trans hr)
        simp [hrest]
    · cases hs

theorem held_front {z : Fin 8} {texts : List Text} {s : Zone2} (h : Reassembled z texts s)
    (sent : Sent texts s) : ∃ later : List Text,
      texts.map Text.chars = s.zones.acted z ++ later.map Text.chars ∧
        (s.zones.inbox z).held <+: (later.map Text.chars).flatMap encode := by
  obtain ⟨tail, htail⟩ := h.1
  obtain ⟨us, later, rfl, -, rfl⟩ := List.map_eq_append_iff.mp htail.symm
  refine ⟨later, htail.symm, s.outbox.flatMap Message.bytes, ?_⟩
  have total := congrArg (List.flatMap Message.bytes) sent
  rw [← htail, List.flatMap_append, h.2] at total
  have divided : ((s.zones.acted z ++ later.map Text.chars).flatMap blocks).flatMap Message.bytes =
      (s.zones.acted z).flatMap encode ++ (later.map Text.chars).flatMap encode := by
    rw [List.flatMap_assoc, List.flatMap_append]
    rfl
  rw [divided, List.append_assoc] at total
  exact List.append_cancel_left total

theorem msiIsr_step {z : Fin 8} {texts : List Text} {s t : Zone2} {recv : Fin 8 → Option Message}
    (h : Reassembled z texts s) (hs : (zone2 z texts).step s (.msiIsr recv) = some t) :
    Reassembled z texts t ↔ OneAtATime z s (.msiIsr recv) := by
  simp only [zone2] at hs
  split at hs
  · obtain rfl := Option.some.inj hs
    cases hr : recv z with
    | none =>
      refine iff_of_true ⟨h.1, ?_⟩ fun ne => absurd hr ne
      simpa [Zones.receive, hr] using h.2
    | some m =>
      have room := (s.zones.inbox z).held_receive_iff m
      unfold OneAtATime
      simp [Reassembled, Zones.receive, hr, h.1, h.2, ← room, eq_comm]
  · cases hs

theorem msgHandler_step {z : Fin 8} {texts : List Text} {s : Zone2} (h : Reassembled z texts s)
    (sent : Sent texts s) : Reassembled z texts { s with zones := msgHandler s.zones } ↔
      OneAtATime z s .msgHandler := by
  obtain ⟨later, order, front⟩ := held_front h sent
  unfold OneAtATime
  simp only [Reassembled, msgHandler_acted, msgHandler_held]
  cases hh : handled s.zones.inbox z with
  | none =>
    by_cases hr : ∃ y, Restarts s.zones.inbox y
    · simp [hr, h.1, h.2, Inbox.held_eq_nil]
    · simp [hr, h.1, h.2]
  | some text =>
    have complete : (s.zones.inbox z).complete = some text := by
      unfold handled at hh
      split at hh
      · cases hh
      · exact hh
    obtain ⟨string, nonempty, ends⟩ := Inbox.complete_eq_some complete
    obtain ⟨t, rest, rfl, ht, exactly⟩ := first_text front (string.symm ▸ ends)
    obtain rfl : text = t.chars := string.symm.trans ht
    have next : s.zones.acted z ++ [t.chars] <+: texts.map Text.chars := by
      rw [order, List.map_cons]
      exact ⟨rest.map Text.chars, by simp⟩
    simp [h.2, next, exactly, Inbox.held_length, encode_length]

/-- A run reassembles the texts of a zone exactly if its events come so that the
buffer is never overrun and never holds more than the text handled. -/
theorem reassembled_iff_oneAtATime (z : Fin 8) (texts : List Text) (turns : List Zone2Turn) :
    (zone2 z texts).Always (Reassembled z texts) (zone2 z texts).initial turns ↔
      (zone2 z texts).Obeys (OneAtATime z) (zone2 z texts).initial turns := by
  refine Machine.always_iff_obeys (J := Sent texts)
    (fun s a t _ sent _ hs => sent_step sent hs) (fun s a t h sent hs => ?_) turns ?_ ?_
  · cases a with
    | msiIsr recv => exact msiIsr_step h hs
    | msgHandler => exact Option.some.inj hs ▸ msgHandler_step h sent
  · exact ⟨List.nil_prefix, rfl⟩
  · simp [Sent, zone2, List.flatMap_map]

def textA : Text := ⟨ascii ['a'], by decide, by decide, by decide⟩
def textB : Text := ⟨ascii ['b'], by decide, by decide, by decide⟩

/-- Both blocks arrive before zone 2's main loop comes round. -/
def bothWaiting : List Zone2Turn :=
  [.msiIsr fun y => if y = 0 then some (.ofText textA.chars) else none,
   .msiIsr fun y => if y = 0 then some (.ofText textB.chars) else none,
   .msgHandler]

theorem bothWaiting_loses_second :
    ∃ s, (zone2 0 [textA, textB]).run (zone2 0 [textA, textB]).initial bothWaiting = some s ∧
      s.outbox = [] ∧ s.zones.acted 0 = [textA.chars] ∧ (s.zones.inbox 0).len = 0 ∧
      ¬ Reassembled 0 [textA, textB] s := by
  refine ⟨_, rfl, rfl, rfl, rfl, fun h => ?_⟩
  have balance := congrArg List.length h.2
  exact absurd balance (by decide)

end MultiZone.Reassembly
