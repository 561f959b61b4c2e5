import MultiZone.Robot.Model

/-! What one statement of the main loop can do: where it leads, and which
variables it writes. -/
namespace MultiZone.Robot
open Transition Sequencer

theorem dispatch_cases (zone : Zone) (msg : Message) :
    (∃ seq, dispatch zone msg = .start zone seq .test) ∨
    (∃ cmd, dispatch zone msg = .setManCmd zone cmd) ∨ dispatch zone msg = .testKey zone := by
  unfold dispatch
  split
  · exact .inl ⟨_, rfl⟩
  · split
    · exact .inl ⟨_, rfl⟩
    · split
      · exact .inl ⟨_, rfl⟩
      · split
        · exact .inr (.inl ⟨_, rfl⟩)
        · exact .inr (.inr rfl)

/-- The control flow, with what the tests on the way have found. -/
inductive Leads (i : Input) (m : Mem) : Pc → Pc → Prop where
  | init : Leads i m .init .testEvent
  | event (raised : m.usbEvent = true) : Leads i m .testEvent .switchState
  | noEvent (quiet : m.usbEvent = false) : Leads i m .testEvent (.mask .zone1)
  | switchState : Leads i m .switchState (.announce m.usbState false)
  | announce (branch : UsbState) : Leads i m (.announce branch false) (.announce branch true)
  | connected : Leads i m (.announce .connected true) (.usbWrite .ack)
  | disconnected : Leads i m (.announce .disconnected true) (.stop .sequence)
  | usbWrite (site : Site) : Leads i m (.usbWrite site) (.dataBuf site (site.cmd m))
  | dataBuf (site : Site) (cmd : BitVec 32) : Leads i m (.dataBuf site cmd) (.getCepState site)
  | getCepState (site : Site) : Leads i m (.getCepState site) (.testCep site i.cep)
  | transmit (site : Site) (cepSt : CepState) (ready : cepSt.ready = true) :
      Leads i m (.testCep site cepSt) (.configurePipe site)
  | decline (site : Site) (cepSt : CepState) (busy : cepSt.ready = false) :
      Leads i m (.testCep site cepSt) (.readMtime site)
  | configurePipe (site : Site) : Leads i m (.configurePipe site) (.startXfr site)
  | startXfr (site : Site) : Leads i m (.startXfr site) (.readMtime site)
  | readMtime (site : Site) : Leads i m (.readMtime site) (.timerSet site (i.now + site.delay))
  | acknowledged (t : Time) : Leads i m (.timerSet .ack t) .clearEvent
  | issued (zone : Zone) (t : Time) : Leads i m (.timerSet (.key zone) t) (.clearInbox zone)
  | stopSequence : Leads i m (.stop .sequence) (.stop .stepIdx)
  | stopStepIdx : Leads i m (.stop .stepIdx) (.stop .size)
  | stopSize : Leads i m (.stop .size) (.stop .stop)
  | stopStop : Leads i m (.stop .stop) .clearEvent
  | clearEvent : Leads i m .clearEvent (.mask .zone1)
  | mask (zone : Zone) : Leads i m (.mask zone) (.testInbox zone)
  | empty (zone : Zone) : Leads i m (.testInbox zone) (.unmask zone)
  | ping (zone : Zone) : Leads i m (.testInbox zone) (.pong zone)
  | message (zone : Zone) : Leads i m (.testInbox zone) (.testConnected zone)
  | pong (zone : Zone) : Leads i m (.pong zone) (.clearInbox zone)
  | testConnected (zone : Zone) (connected : m.usbState = .connected) :
      Leads i m (.testConnected zone) (.testManCmd zone)
  | notConnected (zone : Zone) : Leads i m (.testConnected zone) (.clearInbox zone)
  | stopMessage (zone : Zone) (free : m.manCmd = cmdStop) :
      Leads i m (.testManCmd zone) (.stopReq zone)
  | testManCmd (zone : Zone) (free : m.manCmd = cmdStop) :
      Leads i m (.testManCmd zone) (.testRunning zone)
  | locked (zone : Zone) : Leads i m (.testManCmd zone) (.clearInbox zone)
  | stopReq (zone : Zone) : Leads i m (.stopReq zone) (.clearInbox zone)
  | running (zone : Zone) : Leads i m (.testRunning zone) (.clearInbox zone)
  | startMessage (zone : Zone) (seq : OwiSequence) (idle : m.vars.sequence = none) :
      Leads i m (.testRunning zone) (.start zone seq .test)
  | keyMessage (zone : Zone) (cmd : BitVec 32) (idle : m.vars.sequence = none) :
      Leads i m (.testRunning zone) (.setManCmd zone cmd)
  | otherMessage (zone : Zone) (idle : m.vars.sequence = none) :
      Leads i m (.testRunning zone) (.testKey zone)
  | startTest (zone : Zone) (seq : OwiSequence) (idle : m.vars.sequence = none) :
      Leads i m (.start zone seq .test) (.start zone seq .sequence)
  | startOver (zone : Zone) (seq : OwiSequence) (busy : m.vars.sequence ≠ none) :
      Leads i m (.start zone seq .test) (.seqTimerSet zone)
  | startSequence (zone : Zone) (seq : OwiSequence) :
      Leads i m (.start zone seq .sequence) (.start zone seq .size)
  | startSize (zone : Zone) (seq : OwiSequence) :
      Leads i m (.start zone seq .size) (.start zone seq .stepIdx)
  | startStepIdx (zone : Zone) (seq : OwiSequence) :
      Leads i m (.start zone seq .stepIdx) (.start zone seq .stop)
  | startStop (zone : Zone) (seq : OwiSequence) :
      Leads i m (.start zone seq .stop) (.seqTimerSet zone)
  | seqTimerSet (zone : Zone) : Leads i m (.seqTimerSet zone) (.testKey zone)
  | setManCmd (zone : Zone) (cmd : BitVec 32) :
      Leads i m (.setManCmd zone cmd) (.testKey zone)
  | testKey (zone : Zone) (set : m.manCmd ≠ cmdStop) :
      Leads i m (.testKey zone) (.usbWrite (.key zone))
  | noKey (zone : Zone) (free : m.manCmd = cmdStop) :
      Leads i m (.testKey zone) (.clearInbox zone)
  | clearInbox (zone : Zone) : Leads i m (.clearInbox zone) (.unmask zone)
  | nextZone (zone zone' : Zone) : Leads i m (.unmask zone) (.mask zone')
  | lastZone (zone : Zone) : Leads i m (.unmask zone) .wfi
  | wfi : Leads i m .wfi .testEvent

theorem statement_leads (i : Input) (pc : Pc) (m : Mem) :
    Leads i m pc (statement i pc m).pc := by
  cases pc with
  | testEvent =>
    cases h : m.usbEvent with
    | false => simpa [statement, h] using .noEvent h
    | true => simpa [statement, h] using .event h
  | announce branch again =>
    cases again with
    | false => exact .announce branch
    | true =>
      cases branch with
      | connected => exact .connected
      | disconnected => exact .disconnected
  | testCep site cepSt =>
    cases h : cepSt.ready with
    | false => simpa [statement, h] using .decline site cepSt h
    | true => simpa [statement, h] using .transmit site cepSt h
  | timerSet site t =>
    cases site with
    | ack => exact .acknowledged t
    | key zone => exact .issued zone t
  | stop pc =>
    cases pc with
    | sequence => exact .stopSequence
    | stepIdx => exact .stopStepIdx
    | size => exact .stopSize
    | stop => exact .stopStop
  | testInbox zone =>
    simp only [statement]
    split
    · split
      · exact .ping zone
      · exact .message zone
    · exact .empty zone
  | testConnected zone =>
    simp only [statement]
    split
    · exact .testConnected zone ‹_›
    · exact .notConnected zone
  | testManCmd zone =>
    simp only [statement]
    split
    · split
      · exact .stopMessage zone ‹_›
      · exact .testManCmd zone ‹_›
    · exact .locked zone
  | testRunning zone =>
    cases hseq : m.vars.sequence with
    | none =>
      rcases dispatch_cases zone (m.inbox zone) with ⟨seq, hd⟩ | ⟨cmd, hd⟩ | hd
      · simpa [statement, owiSequenceIsRunning, hseq, hd] using .startMessage zone seq hseq
      · simpa [statement, owiSequenceIsRunning, hseq, hd] using .keyMessage zone cmd hseq
      · simpa [statement, owiSequenceIsRunning, hseq, hd] using .otherMessage zone hseq
    | some seq => simpa [statement, owiSequenceIsRunning, hseq] using .running zone
  | start zone seq pc =>
    cases pc with
    | test =>
      by_cases hseq : m.vars.sequence = none
      · simpa [statement, owiSequenceStart, hseq] using .startTest zone seq hseq
      · simpa [statement, owiSequenceStart, hseq] using .startOver zone seq hseq
    | sequence => exact .startSequence zone seq
    | size => exact .startSize zone seq
    | stepIdx => exact .startStepIdx zone seq
    | stop => exact .startStop zone seq
  | testKey zone =>
    by_cases h : m.manCmd = cmdStop
    · simpa [statement, h] using .noKey zone h
    · simpa [statement, h] using .testKey zone h
  | unmask zone =>
    cases hz : zone.next with
    | none => simpa [statement, hz] using .lastZone zone
    | some zone' => simpa [statement, hz] using .nextZone zone zone'
  | init => exact .init
  | switchState => exact .switchState
  | usbWrite site => exact .usbWrite site
  | dataBuf site cmd => exact .dataBuf site cmd
  | getCepState site => exact .getCepState site
  | configurePipe site => exact .configurePipe site
  | startXfr site => exact .startXfr site
  | readMtime site => exact .readMtime site
  | clearEvent => exact .clearEvent
  | mask zone => exact .mask zone
  | pong zone => exact .pong zone
  | stopReq zone => exact .stopReq zone
  | seqTimerSet zone => exact .seqTimerSet zone
  | setManCmd zone cmd => exact .setManCmd zone cmd
  | clearInbox zone => exact .clearInbox zone
  | wfi => exact .wfi

section Writers

variable (i : Input) (pc : Pc) (m : Mem)

theorem statement_manCmd : (statement i pc m).mem.manCmd = m.manCmd ∨
    ∃ zone cmd, pc = .setManCmd zone cmd := by
  cases pc with
  | setManCmd zone cmd => exact .inr ⟨zone, cmd, rfl⟩
  | _ => exact .inl rfl

theorem statement_usbState : (statement i pc m).mem.usbState = m.usbState := by
  cases pc <;> rfl

theorem statement_usbEvent : (statement i pc m).mem.usbEvent = m.usbEvent ∨
    pc = .clearEvent := by
  cases pc with
  | clearEvent => exact .inr rfl
  | _ => exact .inl rfl

theorem statement_handled : (statement i pc m).mem.handled = m.handled ∨
    pc = .switchState := by
  cases pc with
  | switchState => exact .inr rfl
  | _ => exact .inl rfl

theorem statement_robotSeq :
    (statement i pc m).mem.timecmp .robotSeq = m.timecmp .robotSeq ∨
      ∃ zone, pc = .seqTimerSet zone := by
  cases pc with
  | seqTimerSet zone => exact .inr ⟨zone, rfl⟩
  | _ => exact .inl rfl

theorem statement_robotCmd :
    (statement i pc m).mem.timecmp .robotCmd = m.timecmp .robotCmd ∨
      ∃ site t, pc = .timerSet site t := by
  cases pc with
  | timerSet site t => exact .inr ⟨site, t, rfl⟩
  | _ => exact .inl rfl

theorem statement_writes : (statement i pc m).mem.writes = m.writes ∨
    ∃ site, pc = .usbWrite site := by
  cases pc with
  | usbWrite site => exact .inr ⟨site, rfl⟩
  | _ => exact .inl rfl

theorem statement_sent : (statement i pc m).mem.sent = m.sent ∨
    ∃ site, pc = .startXfr site := by
  cases pc with
  | startXfr site => exact .inr ⟨site, rfl⟩
  | _ => exact .inl rfl

theorem statement_sequence :
    (statement i pc m).mem.vars.sequence = m.vars.sequence ∨
      (statement i pc m).mem.vars.sequence = none ∨
      ∃ zone seq, pc = .start zone seq .sequence := by
  cases pc with
  | start zone seq pc =>
    cases pc with
    | sequence => exact .inr (.inr ⟨zone, seq, rfl⟩)
    | test | size | stepIdx | stop => exact .inl rfl
  | stop pc =>
    cases pc with
    | sequence => exact .inr (.inl rfl)
    | stepIdx | size | stop => exact .inl rfl
  | _ => exact .inl rfl

end Writers

end MultiZone.Robot
