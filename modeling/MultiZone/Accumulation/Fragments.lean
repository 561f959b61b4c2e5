import MultiZone.Accumulation.Leftovers

/-! Texts longer than an inbox. A full inbox starts again at its beginning, and a
block of NULs at its beginning swallows those that come behind it, so that what is
left of a text in the inbox may be some other text. -/
namespace MultiZone.Accumulation
open Transition Reassembly

def pingText : List Byte := ascii ['p', 'i', 'n', 'g']

/-- The texts that are answered by a restart or by pong. -/
def commands : List (List Byte) := [restartText, pingText]

/-- Zone 2, the blocks of the last text that have still to be sent, and the texts. -/
structure Sender where
  zones : Zones
  pending : List Message
  sent : List (List Byte)

inductive SenderTurn where
  | start (text : List Byte)
  | round (recv : Fin 8 → Option Message)

/-- Zone `z` sends texts, with msg_handler called after every block. The others send
anything that does not restart zone 2. -/
def sender (z : Fin 8) : Machine Sender SenderTurn where
  initial := ⟨zones.initial, [], []⟩
  step s
    | .start text =>
      if s.pending = [] ∧ 0 ∉ text then
        some { s with pending := blocks text, sent := s.sent ++ [text] }
      else none
    | .round recv =>
      let zones := s.zones.receive recv
      if (recv z = none ∨ recv z = s.pending.head?) ∧ ∀ y ≠ z, ¬ Restarts zones.inbox y then
        some ⟨msgHandler zones, s.pending.drop (recv z).toList.length, s.sent⟩
      else none

/-- The texts that have been sent to their last block. -/
def Sender.whole (s : Sender) : List (List Byte) :=
  if s.pending = [] then s.sent else s.sent.dropLast

def WholeOnly (z : Fin 8) (s : Sender) : Prop :=
  ∀ w ∈ commands, w ∈ s.zones.acted z → w ∈ s.whole

/-- What is left of a text at its end when the first `skip` blocks are swallowed, and
how many blocks of the next text will be. -/
def fate (skip : Nat) (text : List Byte) : List Byte × Nat :=
  let behind := text.drop (16 * skip)
  let left := behind.drop (inboxSize * (behind.length / inboxSize))
  (left,
    if text.length / 16 < skip then skip - (text.length / 16 + 1)
    else if left = [] then 3 else 0)

def skipAfter (texts : List (List Byte)) : Nat := texts.foldl (fun skip t => (fate skip t).2) 0

def lastLeft (sent : List (List Byte)) : List Byte :=
  (fate (skipAfter sent.dropLast) (sent.getLastD [])).1

/-- What is left of a text at its last block is no command, or one sent as a text. -/
def Harmless (z : Fin 8) (s : Sender) : SenderTurn → Prop
  | .start _ => True
  | .round recv => recv z ≠ none → s.pending.length = 1 →
      lastLeft s.sent ∈ commands → lastLeft s.sent ∈ s.sent

theorem blocks_full {cs : List Byte} (long : 16 ≤ cs.length) :
    blocks cs = .ofText cs :: blocks (cs.drop 16) := by
  rw [blocks, blocksFrom, blocks, List.length_drop]
  congr 2
  omega

theorem blocks_last {cs : List Byte} (short : cs.length < 16) : blocks cs = [.ofText cs] := by
  rw [blocks, Nat.div_eq_of_lt short]
  rfl

theorem blocks_ne_nil (cs : List Byte) : blocks cs ≠ [] := by
  intro none
  have length := congrArg List.length none
  rw [blocks, blocksFrom_length] at length
  exact absurd length (Nat.succ_ne_zero _)

section Fate

variable {skip : Nat} {c r : List Byte}

theorem fate_skip (long : 16 ≤ r.length) : fate (skip + 1) r = fate skip (r.drop 16) := by
  have behind : r.drop (16 * (skip + 1)) = (r.drop 16).drop (16 * skip) := by
    rw [List.drop_drop]
    congr 1
    omega
  have blocks_left : (r.drop 16).length / 16 + 1 = r.length / 16 := by
    rw [List.length_drop]
    omega
  unfold fate
  rw [behind, ← blocks_left]
  simp only [Nat.add_lt_add_iff_right, Nat.add_sub_add_right]

theorem fate_wrap (full : c.length = inboxSize) : fate 0 (c ++ r) = fate 0 r := by
  have start : inboxSize * ((c ++ r).length / inboxSize) =
      c.length + inboxSize * (r.length / inboxSize) := by
    rw [List.length_append, full]
    unfold inboxSize
    omega
  have left : (c ++ r).drop (inboxSize * ((c ++ r).length / inboxSize)) =
      r.drop (inboxSize * (r.length / inboxSize)) := by
    rw [start, List.drop_length_add_append]
  unfold fate
  simp only [Nat.mul_zero, List.drop_zero, left, Nat.not_lt_zero, if_false]

theorem fate_swallowed (short : r.length < 16) : fate (skip + 1) r = ([], skip) := by
  unfold fate
  rw [List.drop_of_length_le (by omega), Nat.div_eq_of_lt short]
  simp

theorem fate_short (short : c.length < inboxSize) : fate 0 c = (c, if c = [] then 3 else 0) := by
  unfold fate
  simp only [Nat.mul_zero, List.drop_zero, Nat.div_eq_of_lt short, Nat.not_lt_zero, if_false]

theorem skipAfter_snoc (texts : List (List Byte)) (t : List Byte) :
    skipAfter (texts ++ [t]) = (fate (skipAfter texts) t).2 := by
  rw [skipAfter, List.foldl_append]
  rfl

theorem lastLeft_snoc (texts : List (List Byte)) (t : List Byte) :
    lastLeft (texts ++ [t]) = (fate (skipAfter texts) t).1 := by
  rw [lastLeft, List.dropLast_concat, List.getLastD_concat]

end Fate

/-- What the next block is put behind. -/
def opened (held : List Byte) : List Byte := if held.length ≥ inboxSize then [] else held

/-- The next `skip` blocks are swallowed. -/
structure Swallows (skip : Nat) (held : List Byte) : Prop where
  blank : held.head? = some 0
  room : held.length + 16 * skip = inboxSize

def Between (skip : Nat) (held : List Byte) : Prop :=
  Swallows skip held ∨ skip = 0 ∧ opened held = []

/-- What is held has the given fate with the rest of a text that is still to come. -/
def Awaits (held rest : List Byte) (f : List Byte × Nat) : Prop :=
  (∃ skip, Swallows (skip + 1) held ∧ fate (skip + 1) rest = f) ∨
    0 ∉ opened held ∧ 16 ∣ (opened held).length ∧ fate 0 (opened held ++ rest) = f

section Held

variable {i : Inbox} {held rest : List Byte} {f : List Byte × Nat} {skip : Nat}

theorem opened_of_lt (room : held.length < inboxSize) : opened held = held :=
  if_neg (Nat.not_le_of_lt room)

theorem opened_of_full (full : held.length = inboxSize) : opened held = [] :=
  if_pos full.ge

theorem opened_short : (opened held).length < inboxSize := by
  unfold opened
  split
  · exact Nat.zero_lt_succ 63
  · omega

theorem receive_held (i : Inbox) (m : Message) :
    (i.receive m).held = opened i.held ++ m.bytes := by
  rw [i.held_receive, Inbox.offset, opened, i.held_length]
  split <;> rfl

theorem complete_blank (blank : i.held.head? = some 0) : i.complete = none :=
  (complete_eq_none i).mpr (.inr (.inl blank))

theorem complete_open (noNul : 0 ∉ i.held) : i.complete = none :=
  (complete_eq_none i).mpr (.inr (.inr noNul))

theorem complete_text {text tail : List Byte} (h : i.held = text ++ 0 :: tail)
    (nonempty : text ≠ []) (noNul : 0 ∉ text) : i.complete = some text := by
  cases hc : i.complete with
  | some msg =>
    obtain ⟨string, -, -⟩ := Inbox.complete_eq_some hc
    rw [h, cstring_terminated tail noNul] at string
    rw [string]
  | none =>
    exfalso
    rcases (complete_eq_none i).mp hc with empty | blank | none
    · rw [← Inbox.held_eq_nil, h] at empty
      exact List.append_ne_nil_of_right_ne_nil _ (List.cons_ne_nil _ _) empty
    · rw [h, List.head?_append_of_ne_nil _ nonempty] at blank
      exact noNul (List.mem_of_mem_head? blank)
    · rw [h] at none
      exact none (List.mem_append_right _ List.mem_cons_self)

theorem Swallows.more {bytes : List Byte} (h : Swallows (skip + 1) held)
    (block : bytes.length = 16) : Swallows skip (opened held ++ bytes) := by
  have room := h.room
  rw [opened_of_lt (by omega)]
  refine ⟨?_, ?_⟩
  · cases held with
    | nil => cases h.blank
    | cons c held => exact h.blank
  · rw [List.length_append, block]
    omega

theorem Between.awaits (h : Between skip held) (text : List Byte) :
    Awaits held text (fate skip text) := by
  have fresh : opened held = [] → Awaits held text (fate 0 text) := by
    intro none
    refine .inr ?_
    rw [none]
    exact ⟨List.not_mem_nil, ⟨0, rfl⟩, rfl⟩
  rcases h with swallows | ⟨rfl, none⟩
  · cases skip with
    | zero => exact fresh (opened_of_full swallows.room)
    | succ skip => exact .inl ⟨skip, swallows, rfl⟩
  · exact fresh none

/-- A block without a NUL is not acted on, and has taken its part of the text. -/
theorem Awaits.full (h : Awaits held rest f) (long : 16 ≤ rest.length) (noNul : 0 ∉ rest)
    (now : i.held = opened held ++ rest.take 16) :
    i.complete = none ∧ Awaits i.held (rest.drop 16) f := by
  have block : (rest.take 16).length = 16 := List.length_take_of_le long
  rcases h with ⟨skip, swallows, same⟩ | ⟨clean, whole, same⟩
  · have less := swallows.more block
    rw [← now] at less
    rw [fate_skip long] at same
    exact ⟨complete_blank less.blank, same ▸ Between.awaits (.inl less) _⟩
  · have fresh : 0 ∉ i.held := by
      rw [now, List.mem_append]
      exact fun nul => nul.elim clean fun inside => noNul (List.mem_of_mem_take inside)
    refine ⟨complete_open fresh, .inr ?_⟩
    have divided : opened held ++ rest = i.held ++ rest.drop 16 := by
      rw [now, List.append_assoc, List.take_append_drop]
    rw [divided] at same
    have length : i.held.length = (opened held).length + 16 := by
      rw [now, List.length_append, block]
    have short := @opened_short held
    by_cases full : i.held.length = inboxSize
    · rw [opened_of_full full]
      rw [fate_wrap full] at same
      exact ⟨List.not_mem_nil, ⟨0, rfl⟩, same⟩
    · have room : i.held.length < inboxSize := by
        unfold inboxSize at *
        omega
      rw [opened_of_lt room]
      exact ⟨fresh, by omega, same⟩

theorem Awaits.last {n : Nat} (h : Awaits held rest f) (short : rest.length < 16)
    (noNul : 0 ∉ rest) (block : rest.length + n = 15)
    (now : i.held = opened held ++ (rest ++ 0 :: List.replicate n 0)) :
    f.1 = [] ∧ i.complete = none ∧ Between f.2 i.held ∨
      f.1 ≠ [] ∧ i.complete = some f.1 ∧ f.2 = 0 := by
  have size : (rest ++ 0 :: List.replicate n 0).length = 16 := by
    rw [List.length_append, List.length_cons, List.length_replicate]
    omega
  rcases h with ⟨skip, swallows, rfl⟩ | ⟨clean, whole, rfl⟩
  · have less := swallows.more size
    rw [← now] at less
    rw [fate_swallowed short]
    exact .inl ⟨rfl, complete_blank less.blank, .inl less⟩
  · have room := @opened_short held
    have fits : (opened held ++ rest).length < inboxSize := by
      rw [List.length_append]
      unfold inboxSize at *
      omega
    rw [← List.append_assoc] at now
    rw [fate_short fits]
    by_cases none : opened held ++ rest = []
    · rw [none] at now ⊢
      obtain ⟨-, rfl⟩ := List.append_eq_nil_iff.mp none
      have blank : i.held.head? = some 0 := by rw [now]; rfl
      refine .inl ⟨rfl, complete_blank blank, .inl ⟨blank, ?_⟩⟩
      rw [now, List.nil_append, List.length_cons, List.length_replicate]
      simp only [List.length_nil, Nat.zero_add] at block
      subst block
      rfl
    · refine .inr ⟨none, complete_text now none ?_, if_neg none⟩
      rw [List.mem_append]
      exact fun nul => nul.elim clean noNul

end Held

theorem handler_zone {z : Fin 8} {s : Zones} (alone : ∀ y ≠ z, ¬ Restarts s.inbox y) :
    (msgHandler s).acted z = s.acted z ++ (s.inbox z).complete.toList ∧
      ((msgHandler s).inbox z).held =
        if (s.inbox z).complete = none then (s.inbox z).held else [] := by
  have reached : handled s.inbox z = (s.inbox z).complete :=
    if_neg fun ⟨y, before, restarts⟩ => alone y before.ne restarts
  rw [msgHandler_acted, msgHandler_held, reached]
  refine ⟨rfl, ?_⟩
  cases hc : (s.inbox z).complete with
  | none =>
    have none_restarts : ¬ ∃ y, Restarts s.inbox y := by
      rintro ⟨y, restarts⟩
      by_cases same : y = z
      · rw [same, Restarts, hc] at restarts
        cases restarts
      · exact alone y same restarts
    simp [none_restarts]
  | some msg => simp

inductive Stage (z : Fin 8) (s : Sender) : Prop
  | between (done : s.pending = [])
      (held : Between (skipAfter s.sent) (s.zones.inbox z).held)
  | within (earlier : List (List Byte)) (text rest : List Byte) (sent : s.sent = earlier ++ [text])
      (pending : s.pending = blocks rest) (noNul : 0 ∉ rest)
      (held : Awaits (s.zones.inbox z).held rest (fate (skipAfter earlier) text))

structure Underway (z : Fin 8) (s : Sender) : Prop where
  idle : (s.zones.inbox z).complete = none
  stage : Stage z s

section Steps

variable {z : Fin 8} {s t : Sender} {text : List Byte} {recv : Fin 8 → Option Message}

theorem complete_of_held {i j : Inbox} (same : i.held = j.held) :
    i.complete = none ↔ j.complete = none := by
  have len : i.len = j.len := by rw [← i.held_length, same, j.held_length]
  rw [complete_eq_none, complete_eq_none, same, len]

theorem WholeOnly.same (h : WholeOnly z s) (acted : t.zones.acted z = s.zones.acted z)
    (whole : s.whole ⊆ t.whole) : WholeOnly z t := by
  intro w command done
  rw [acted] at done
  exact whole (h w command done)

theorem start_step (h : Underway z s) (only : WholeOnly z s)
    (hs : (sender z).step s (.start text) = some t) : Underway z t ∧ WholeOnly z t := by
  simp only [sender] at hs
  split at hs
  · rename_i fresh
    obtain rfl := Option.some.inj hs
    have whole : s.whole = s.sent := if_pos fresh.1
    refine ⟨⟨h.idle, ?_⟩, only.same rfl ?_⟩
    · cases h.stage with
      | between done held => exact .within s.sent text text rfl rfl fresh.2 (held.awaits text)
      | within earlier last rest sent pending =>
        exact absurd (pending.symm.trans fresh.1) (blocks_ne_nil rest)
    · rw [whole, Sender.whole, if_neg (blocks_ne_nil text), List.dropLast_concat]
      exact List.Subset.refl _
  · cases hs

theorem round_zone (hs : (sender z).step s (.round recv) = some t) :
    (recv z = none ∨ recv z = s.pending.head?) ∧ t.sent = s.sent ∧
      t.pending = s.pending.drop (recv z).toList.length ∧
      let now := (recv z).elim (s.zones.inbox z) (s.zones.inbox z).receive
      t.zones.acted z = s.zones.acted z ++ now.complete.toList ∧
        (t.zones.inbox z).held = if now.complete = none then now.held else [] := by
  simp only [sender] at hs
  split at hs
  · rename_i enabled
    obtain rfl := Option.some.inj hs
    exact ⟨enabled.1, rfl, rfl, handler_zone enabled.2⟩
  · cases hs

theorem quiet_step (h : Underway z s) (only : WholeOnly z s) (none_sent : recv z = none)
    (hs : (sender z).step s (.round recv) = some t) : Underway z t ∧ WholeOnly z t := by
  obtain ⟨-, sent, pending, acted, held⟩ := round_zone hs
  simp only [none_sent, Option.elim_none, h.idle, Option.toList_none, List.append_nil,
    if_true] at acted held
  rw [none_sent, Option.toList_none, List.length_nil, List.drop_zero] at pending
  refine ⟨⟨(complete_of_held held).mpr h.idle, ?_⟩, only.same acted ?_⟩
  · cases h.stage with
    | between done stays =>
      exact .between (pending.trans done) (by rw [sent, held]; exact stays)
    | within earlier last rest split left noNul stays =>
      exact .within earlier last rest (sent.trans split) (pending.trans left) noNul
        (by rw [held]; exact stays)
  · rw [Sender.whole, Sender.whole, pending, sent]
    exact List.Subset.refl _

theorem round_block {m : Message} (block : recv z = some m)
    (hs : (sender z).step s (.round recv) = some t) :
    s.pending.head? = some m ∧ t.sent = s.sent ∧ t.pending = s.pending.tail ∧
      let now := (s.zones.inbox z).receive m
      t.zones.acted z = s.zones.acted z ++ now.complete.toList ∧
        (t.zones.inbox z).held = if now.complete = none then now.held else [] := by
  obtain ⟨enabled, sent, pending, acted, held⟩ := round_zone hs
  have head := enabled.resolve_left (by rw [block]; exact Option.some_ne_none m)
  simp only [block, Option.elim_some] at acted held
  rw [block, Option.toList_some, List.length_singleton, List.drop_one] at pending
  exact ⟨head.symm.trans block, sent, pending, acted, held⟩

section Block

variable {m : Message} {earlier : List (List Byte)} {rest : List Byte}

theorem full_step (only : WholeOnly z s) (split : s.sent = earlier ++ [text])
    (left : s.pending = blocks rest) (noNul : 0 ∉ rest)
    (awaits : Awaits (s.zones.inbox z).held rest (fate (skipAfter earlier) text))
    (long : 16 ≤ rest.length) (block : recv z = some m)
    (hs : (sender z).step s (.round recv) = some t) :
    Underway z t ∧ (WholeOnly z t ↔ Harmless z s (.round recv)) := by
  obtain ⟨head, sent, pending, acted, held⟩ := round_block block hs
  have stored := receive_held (s.zones.inbox z) m
  rw [left, blocks_full long] at head pending
  obtain rfl := Option.some.inj head
  rw [Message.ofText_full long] at stored
  obtain ⟨quiet, goes_on⟩ := awaits.full long noNul stored
  rw [quiet, Option.toList_none, List.append_nil] at acted
  rw [quiet, if_pos rfl] at held
  have later : t.pending = blocks (rest.drop 16) := pending
  refine ⟨⟨(complete_of_held held).mpr quiet, ?_⟩, ?_⟩
  · apply Stage.within earlier text (rest.drop 16) (sent.trans split) later
    · exact fun nul => noNul (List.mem_of_mem_drop nul)
    · rw [held]
      exact goes_on
  · refine iff_of_true (only.same acted ?_) fun _ one => ?_
    · rw [Sender.whole, Sender.whole, left, later, sent, if_neg (blocks_ne_nil _),
        if_neg (blocks_ne_nil _)]
      exact List.Subset.refl _
    · rw [left, blocks_full long, List.length_cons, Nat.succ_inj, List.length_eq_zero_iff] at one
      exact absurd one (blocks_ne_nil _)

/-- At the last block of a text what is left of it is acted on, if anything is. -/
theorem last_step (only : WholeOnly z s) (split : s.sent = earlier ++ [text])
    (left : s.pending = blocks rest) (noNul : 0 ∉ rest)
    (awaits : Awaits (s.zones.inbox z).held rest (fate (skipAfter earlier) text))
    (short : rest.length < 16) (block : recv z = some m)
    (hs : (sender z).step s (.round recv) = some t) :
    Underway z t ∧ (WholeOnly z t ↔ Harmless z s (.round recv)) := by
  obtain ⟨head, sent, pending, acted, held⟩ := round_block block hs
  have stored := receive_held (s.zones.inbox z) m
  have left_over : lastLeft s.sent = (fate (skipAfter earlier) text).1 := by
    rw [split, lastLeft_snoc]
  have last : s.pending.length = 1 := by
    rw [left, blocks_last short]
    rfl
  rw [left, blocks_last short] at head pending
  obtain rfl := Option.some.inj head
  rw [Message.ofText_last short] at stored
  have whole : t.whole = s.sent := by
    rw [Sender.whole, pending, sent]
    rfl
  have more : s.whole ⊆ t.whole := by
    rw [whole, Sender.whole]
    split
    · exact List.Subset.refl _
    · exact List.dropLast_subset _
  rcases awaits.last short noNul (by omega) stored with ⟨none, quiet, between⟩ |
    ⟨some, complete, fresh⟩
  · rw [quiet, Option.toList_none, List.append_nil] at acted
    rw [quiet, if_pos rfl] at held
    refine ⟨⟨(complete_of_held held).mpr quiet, .between pending ?_⟩, ?_⟩
    · rw [sent, split, skipAfter_snoc, held]
      exact between
    · refine iff_of_true (only.same acted more) fun _ _ command => ?_
      rw [left_over, none] at command
      exact absurd command (by decide)
  · rw [complete, Option.toList_some] at acted
    rw [complete, if_neg (Option.some_ne_none _)] at held
    have idle : (t.zones.inbox z).complete = .none :=
      (complete_eq_none _).mpr (.inl ((Inbox.held_eq_nil _).mp held))
    refine ⟨⟨idle, .between pending (.inr ⟨?_, ?_⟩)⟩, ?_⟩
    · rw [sent, split, skipAfter_snoc]
      exact fresh
    · rw [held]
      rfl
    · have sends : recv z ≠ .none := by
        rw [block]
        exact Option.some_ne_none _
      simp only [Harmless, sends, last, ne_eq, not_false_eq_true, forall_const, left_over]
      constructor
      · intro now command
        rw [← whole]
        apply now _ command
        rw [acted]
        exact List.mem_append_right _ List.mem_cons_self
      · intro harmless w command done
        rw [acted, List.mem_append, List.mem_singleton] at done
        rcases done with before | rfl
        · exact more (only w command before)
        · rw [whole]
          exact harmless command

end Block

theorem block_step {m : Message} (h : Underway z s) (only : WholeOnly z s)
    (block : recv z = some m) (hs : (sender z).step s (.round recv) = some t) :
    Underway z t ∧ (WholeOnly z t ↔ Harmless z s (.round recv)) := by
  cases h.stage with
  | between done =>
    have head := (round_block block hs).1
    rw [done] at head
    cases head
  | within earlier text rest split left noNul awaits =>
    rcases Nat.lt_or_ge rest.length 16 with short | long
    · exact last_step only split left noNul awaits short block hs
    · exact full_step only split left noNul awaits long block hs

theorem sender_step {a : SenderTurn} (h : Underway z s) (only : WholeOnly z s)
    (hs : (sender z).step s a = some t) : Underway z t ∧ (WholeOnly z t ↔ Harmless z s a) := by
  cases a with
  | start text =>
    have kept := start_step h only hs
    exact ⟨kept.1, iff_of_true kept.2 trivial⟩
  | round recv =>
    cases hr : recv z with
    | none =>
      have kept := quiet_step h only hr hs
      exact ⟨kept.1, iff_of_true kept.2 fun sends => absurd hr sends⟩
    | some m => exact block_step h only hr hs

end Steps

/-- A run restarts, or answers pong, for no part of a text exactly if what is left of
each text at its last block is no command, or one that has been sent as a text. -/
theorem wholeOnly_iff_harmless (z : Fin 8) (turns : List SenderTurn) :
    (sender z).Always (WholeOnly z) (sender z).initial turns ↔
      (sender z).Obeys (Harmless z) (sender z).initial turns := by
  apply Machine.always_iff_obeys (J := Underway z)
  · exact fun s a t only h _ hs => (sender_step h only hs).1
  · exact fun s a t only h hs => (sender_step h only hs).2
  · intro w _ done
    cases done
  · exact ⟨rfl, .between rfl (.inr ⟨rfl, rfl⟩)⟩

def longText : List Byte := List.replicate 64 97 ++ restartText

def longRun (z : Fin 8) : List SenderTurn :=
  .start longText :: (blocks longText).map fun m => .round fun y => if y = z then some m else none

theorem longText_restarts :
    ∃ s, (sender 0).run (sender 0).initial (longRun 0) = some s ∧ s.whole = [longText] ∧
      s.zones.acted 0 = [restartText] ∧ ¬ WholeOnly 0 s := by
  have restarts : ∃ s, (sender 0).run (sender 0).initial (longRun 0) = some s ∧
      s.whole = [longText] ∧ s.zones.acted 0 = [restartText] := ⟨_, rfl, rfl, rfl⟩
  obtain ⟨s, runs, whole, acted⟩ := restarts
  refine ⟨s, runs, whole, acted, fun only => ?_⟩
  have sent := only restartText List.mem_cons_self (by rw [acted]; exact List.mem_cons_self)
  rw [whole] at sent
  exact absurd sent (by decide)

end MultiZone.Accumulation
