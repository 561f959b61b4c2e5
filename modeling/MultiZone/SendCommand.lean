import MultiZone.Accumulation.Fragments

/-! The send command of zone 2 and of harts 1 to 3, and zone 2 at the other end. -/
namespace MultiZone.SendCommand
open Transition Reassembly Accumulation

/-- strtok(inputline, " "), nine times. -/
def tokens (inputline : List Byte) : List (List Byte) :=
  (((cstring inputline).splitOn 32).filter (· ≠ [])).take 9

def strncpy (dest src : List Byte) (n : Nat) : List Byte :=
  (src ++ List.replicate n 0).take n ++ dest.drop n

theorem strncpy_length {dest : List Byte} (src : List Byte) {n : Nat} (room : n ≤ dest.length) :
    (strncpy dest src n).length = dest.length := by
  simp only [strncpy, List.length_append, List.length_take, List.length_replicate,
    List.length_drop]
  omega

/-- strncpy(msg, tk[2], (sizeof msg)-1) -/
def copied (msg : Message) (token : List Byte) : Message :=
  ⟨strncpy msg.bytes token 15, by rw [strncpy_length token (by rw [msg.size]; decide), msg.size]⟩

/-- The branch of cmd_handler: the zone and what MZONE_SEND is given. `msg` is what the
stack holds where the variable is, `last` the digit of the last zone. -/
def cmdHandler (last : Byte) (inputline : List Byte) (msg : Message) : Option (Byte × Message) :=
  match tokens inputline with
  | command :: zone :: token :: _ =>
    if command = ascii ['s', 'e', 'n', 'd'] ∧ 49 ≤ zone.headD 0 ∧ zone.headD 0 ≤ last then
      some (zone.headD 0 - 48, copied msg token)
    else none
  | _ => none

inductive Console where
  | zone2
  | hart1
  | hart2
  | hart3
  deriving DecidableEq

def Console.cmdHandler : Console → List Byte → Message → Option (Byte × Message)
  | .zone2 => SendCommand.cmdHandler 56
  | .hart1 | .hart2 | .hart3 => SendCommand.cmdHandler 52

/-- A command line typed on a console, the sender that zone 2 takes it for, and what
is on the console's stack. -/
structure Line where
  console : Console
  sender : Fin 8
  inputline : List Byte
  stack : Message

def Line.token (l : Line) : List Byte := (tokens l.inputline).getD 2 []

/-- Zone 2, and the history: what MZONE_SEND was given for each token, and the tokens
sent to zone 2 by each sender. -/
structure State where
  zones : Zones
  given : List (List Byte × Message)
  typed : Fin 8 → List (List Byte)

/-- A send command. What is sent to zone 2 is received and handled before the next. -/
def consoles : Machine State Line where
  initial := ⟨zones.initial, [], fun _ => []⟩
  step s l :=
    (l.console.cmdHandler l.inputline l.stack).map fun (zone, msg) =>
      let given := s.given ++ [(l.token, msg)]
      if zone = 2 then
        ⟨msgHandler (s.zones.receive fun z => if z = l.sender then some msg else none), given,
          Function.update s.typed l.sender (s.typed l.sender ++ [l.token])⟩
      else { s with given := given }

def exactly (token : List Byte) : List Byte :=
  token.take 15 ++ List.replicate (16 - (token.take 15).length) 0

/-- What msg_handler does with a text: any but its two commands it displays. -/
inductive Answer where
  | pong
  | restart
  | display (text : List Byte)
  deriving DecidableEq

def answer (text : List Byte) : Answer :=
  if text = pingText then .pong
  else if text = restartText then .restart
  else .display text

structure Typed (s : State) : Prop where
  exact : ∀ p ∈ s.given, p.2.bytes = exactly p.1
  shown : ∀ z, (s.zones.acted z).map answer = (s.typed z).map fun token => answer (token.take 15)

/-- The byte behind the copied characters is a NUL. -/
def Terminated (_ : State) (l : Line) : Prop := l.stack.bytes.getD 15 0 = 0

theorem splitOn_inside {cs w : List Byte} {c sep : Byte} (part : w ∈ cs.splitOn sep)
    (inside : c ∈ w) : c ∈ cs := by
  induction cs generalizing w with
  | nil =>
    rw [List.splitOn_nil, List.mem_singleton] at part
    rw [part] at inside
    cases inside
  | cons x cs ih =>
    rw [List.splitOn_cons_eq_if_modifyHead] at part
    split at part
    · rcases List.mem_cons.mp part with rfl | later
      · cases inside
      · exact List.mem_cons_of_mem x (ih later inside)
    · obtain ⟨head, rest, split⟩ := List.exists_cons_of_ne_nil (List.splitOn_ne_nil sep cs)
      rw [split] at ih part
      rcases List.mem_cons.mp part with rfl | later
      · rcases List.mem_cons.mp inside with rfl | behind
        · exact List.mem_cons_self
        · exact List.mem_cons_of_mem x (ih List.mem_cons_self behind)
      · exact List.mem_cons_of_mem x (ih (List.mem_cons_of_mem head later) inside)

theorem token_text {inputline token : List Byte} (h : token ∈ tokens inputline) :
    token ≠ [] ∧ 0 ∉ token := by
  obtain ⟨part, nonempty⟩ := List.mem_filter.mp (List.mem_of_mem_take h)
  refine ⟨by simpa using nonempty, fun nul => ?_⟩
  have inside := List.mem_takeWhile_imp (splitOn_inside part nul)
  simp at inside

theorem cmdHandler_some {last zone : Byte} {l : Line} {msg : Message}
    (h : cmdHandler last l.inputline l.stack = some (zone, msg)) :
    msg = copied l.stack l.token ∧ l.token ≠ [] ∧ 0 ∉ l.token := by
  unfold cmdHandler at h
  split at h
  · rename_i command digits token rest same
    split at h
    · cases h
      have inside : token ∈ tokens l.inputline := by
        rw [same]
        exact List.mem_cons_of_mem _ (List.mem_cons_of_mem _ List.mem_cons_self)
      simp only [Line.token, same, List.getD_cons_succ, List.getD_cons_zero]
      exact ⟨trivial, token_text inside⟩
    · cases h
  · cases h

theorem console_some {zone : Byte} {l : Line} {msg : Message}
    (h : l.console.cmdHandler l.inputline l.stack = some (zone, msg)) :
    msg = copied l.stack l.token ∧ l.token ≠ [] ∧ 0 ∉ l.token := by
  cases console : l.console <;> exact cmdHandler_some (by rw [console] at h; exact h)

theorem copied_bytes (msg : Message) (token : List Byte) :
    (copied msg token).bytes = token.take 15 ++
      List.replicate (15 - (token.take 15).length) 0 ++ [msg.bytes.getD 15 0] := by
  have size := msg.size
  have last : msg.bytes.drop 15 = [msg.bytes.getD 15 0] := by
    rw [List.drop_eq_getElem_cons (by omega), List.drop_of_length_le (by omega),
      ← List.getElem_eq_getD 0]
  change strncpy msg.bytes token 15 = _
  rw [strncpy, last, List.take_append, List.take_replicate, List.length_take]
  congr 3
  omega

theorem copied_exactly (msg : Message) (token : List Byte) :
    (copied msg token).bytes = exactly token ↔ msg.bytes.getD 15 0 = 0 := by
  have short : (token.take 15).length ≤ 15 := List.length_take_le 15 token
  have padded : exactly token = token.take 15 ++
      List.replicate (15 - (token.take 15).length) 0 ++ [0] := by
    rw [exactly, List.append_assoc, ← List.replicate_succ']
    congr 2
    omega
  rw [copied_bytes, padded, List.append_cancel_left_eq, List.singleton_inj]

theorem received_text {s : Zones} (sender : Fin 8) {m : Message} {text : List Byte} {n : Nat}
    (empty : ∀ z, (s.inbox z).len = 0) (bytes : m.bytes = text ++ 0 :: List.replicate n 0)
    (nonempty : text ≠ []) (noNul : 0 ∉ text) :
    let t := msgHandler (s.receive fun z => if z = sender then some m else none)
    (∀ z, (t.inbox z).len = 0) ∧
      t.acted = Function.update s.acted sender (s.acted sender ++ [text]) := by
  intro t
  let now := s.receive fun z => if z = sender then some m else none
  have others : ∀ z ≠ sender, now.inbox z = s.inbox z := by
    intro z other
    simp only [now, Zones.receive, if_neg other, Option.elim_none]
  have quiet : ∀ z ≠ sender, (now.inbox z).complete = none := by
    intro z other
    rw [others z other]
    exact (complete_eq_none _).mpr (.inl (empty z))
  have alone : ∀ y ≠ sender, ¬ Restarts now.inbox y := by
    intro y other restarts
    rw [Restarts, quiet y other] at restarts
    cases restarts
  have held : (now.inbox sender).held = text ++ 0 :: List.replicate n 0 := by
    have fresh : (s.inbox sender).held = [] := (Inbox.held_eq_nil _).mpr (empty sender)
    simp only [now, Zones.receive, if_true, Option.elim_some]
    rw [receive_held, fresh, bytes]
    rfl
  have complete : (now.inbox sender).complete = some text := complete_text held nonempty noNul
  obtain ⟨acted, cleared⟩ := handler_zone alone
  rw [complete, if_neg (Option.some_ne_none text)] at cleared
  rw [complete, Option.toList_some] at acted
  refine ⟨fun z => ?_, funext fun z => ?_⟩
  · rw [← Inbox.held_eq_nil]
    by_cases same : z = sender
    · rw [same]
      exact cleared
    · have stays := msgHandler_held now z
      rw [others z same, (Inbox.held_eq_nil _).mpr (empty z), ite_self] at stays
      exact stays
  · by_cases same : z = sender
    · rw [same, Function.update_self]
      exact acted
    · have none_handled : handled now.inbox z = none := by
        rw [handled, quiet z same, ite_self]
      have stays := msgHandler_acted now z
      rw [none_handled, Option.toList_none, List.append_nil] at stays
      rw [Function.update_of_ne same]
      exact stays

theorem received_token {s : Zones} {typed : Fin 8 → List (List Byte)} (sender : Fin 8)
    {stack : Message} {token : List Byte} (empty : ∀ z, (s.inbox z).len = 0)
    (shown : ∀ z, (s.acted z).map answer = (typed z).map fun token => answer (token.take 15))
    (nul : stack.bytes.getD 15 0 = 0) (nonempty : token ≠ []) (noNul : 0 ∉ token) :
    let t := msgHandler (s.receive fun z => if z = sender then some (copied stack token) else none)
    (∀ z, (t.inbox z).len = 0) ∧ ∀ z, (t.acted z).map answer =
      (Function.update typed sender (typed sender ++ [token]) z).map
        fun token => answer (token.take 15) := by
  have bytes := copied_bytes stack token
  rw [nul, List.append_assoc, ← List.replicate_succ', List.replicate_succ] at bytes
  have first : token.take 15 ≠ [] := by
    rw [ne_eq, List.take_eq_nil_iff, not_or]
    exact ⟨by decide, nonempty⟩
  obtain ⟨cleared, acted⟩ := received_text sender empty bytes first
    fun inside => noNul (List.mem_of_mem_take inside)
  refine ⟨cleared, fun z => ?_⟩
  rw [acted]
  by_cases same : z = sender
  · subst same
    rw [Function.update_self, Function.update_self, List.map_append, List.map_append, shown z]
    rfl
  · rw [Function.update_of_ne same, Function.update_of_ne same]
    exact shown z

def Idle (s : State) : Prop := ∀ z, (s.zones.inbox z).len = 0

section Step

variable {s t : State} {l : Line}

theorem exact_snoc {given : List (List Byte × Message)} (token : List Byte) (stack : Message)
    (before : ∀ p ∈ given, p.2.bytes = exactly p.1) :
    (∀ p ∈ given ++ [(token, copied stack token)], p.2.bytes = exactly p.1) ↔
      stack.bytes.getD 15 0 = 0 := by
  rw [← copied_exactly stack token]
  constructor
  · intro all
    exact all (token, copied stack token) (List.mem_append_right _ List.mem_cons_self)
  · intro last p hp
    rcases List.mem_append.mp hp with old | new
    · exact before p old
    · rw [List.mem_singleton.mp new]
      exact last

theorem line_step (idle : Idle s) (typed : Typed s) (hs : consoles.step s l = some t) :
    (Terminated s l → Idle t) ∧ (Typed t ↔ Terminated s l) := by
  obtain ⟨⟨zone, msg⟩, runs, rfl⟩ := Option.map_eq_some_iff.mp hs
  obtain ⟨rfl, nonempty, noNul⟩ := console_some runs
  have exact_iff := exact_snoc l.token l.stack typed.exact
  dsimp only
  split
  · have received := fun nul : l.stack.bytes.getD 15 0 = 0 =>
      received_token l.sender idle typed.shown nul nonempty noNul
    refine ⟨fun nul => (received nul).1, ?_⟩
    constructor
    · intro after
      exact exact_iff.mp after.exact
    · intro nul
      exact ⟨exact_iff.mpr nul, (received nul).2⟩
  · refine ⟨fun _ => idle, ?_⟩
    constructor
    · intro after
      exact exact_iff.mp after.exact
    · intro nul
      exact ⟨exact_iff.mpr nul, typed.shown⟩

end Step

/-- What is typed is what is transmitted and displayed exactly if the last byte of the
variable was a NUL before. -/
theorem typed_iff_terminated (lines : List Line) :
    consoles.Always Typed consoles.initial lines ↔
      consoles.Obeys Terminated consoles.initial lines := by
  apply Machine.always_iff_obeys (J := Idle)
  · exact fun s l t typed idle terminated hs => (line_step idle typed hs).1 terminated
  · exact fun s l t typed idle hs => (line_step idle typed hs).2
  · exact ⟨fun p given => (by cases given), fun z => rfl⟩
  · exact fun z => rfl

/-- `send 2 abcdefghijklmno` on hart 1, with the stack full of another value. -/
def fifteen (sender : Fin 8) : Line where
  console := .hart1
  sender := sender
  inputline := ascii ['s', 'e', 'n', 'd', ' ', '2', ' ', 'a', 'b', 'c', 'd', 'e', 'f', 'g', 'h',
    'i', 'j', 'k', 'l', 'm', 'n', 'o']
  stack := ⟨List.replicate 16 255, rfl⟩

theorem fifteen_not_displayed :
    ∃ s, consoles.run consoles.initial [fifteen 0] = some s ∧
      s.typed 0 = [(fifteen 0).token] ∧ s.zones.acted 0 = [] ∧ (s.zones.inbox 0).len = 16 ∧
      ¬ Typed s := by
  have runs : ∃ s, consoles.run consoles.initial [fifteen 0] = some s ∧
      s.typed 0 = [(fifteen 0).token] ∧ s.zones.acted 0 = [] ∧ (s.zones.inbox 0).len = 16 :=
    ⟨_, rfl, rfl, rfl, rfl⟩
  obtain ⟨s, run, typed, acted, len⟩ := runs
  refine ⟨s, run, typed, acted, len, fun whole => ?_⟩
  have shown := whole.shown 0
  rw [typed, acted] at shown
  cases shown

end MultiZone.SendCommand
