import Mathlib.Logic.Function.Iterate

/-! The communication controller between the two processors, as `hw_ipcc.c` uses it in a Zigbee
application: one message at a time on each channel, and a register of interrupt masks. -/

namespace Baelux.Ipcc

/-- The channels from the M0 whose messages a task answers: `HW_IPCC_ZIGBEE_APPLI_NOTIF_ACK_CHANNEL`
and `HW_IPCC_ZIGBEE_M0_REQUEST_CHANNEL`. -/
inductive Line where
  | notify
  | request
  deriving DecidableEq, Repr

/-- The channels to the M0 that interrupt when the M0 has taken the message. -/
inductive TxChannel where
  | systemCmdRsp
  | zigbeeCmdAppli
  | mmReleaseBuffer
  | hciAclData
  deriving DecidableEq, Repr

/-- The bits of `IPCC->C1MR`; a set bit masks the interrupt of its channel. Those of the system
events and the traces stay clear. -/
structure C1mr where
  rx : Line → Bool
  tx : TxChannel → Bool

namespace C1mr

def enableReceiveChannel (line : Line) (r : C1mr) : C1mr :=
  { r with rx := Function.update r.rx line false }

def disableReceiveChannel (line : Line) (r : C1mr) : C1mr :=
  { r with rx := Function.update r.rx line true }

def enableTransmitChannel (channel : TxChannel) (r : C1mr) : C1mr :=
  { r with tx := Function.update r.tx channel false }

def disableTransmitChannel (channel : TxChannel) (r : C1mr) : C1mr :=
  { r with tx := Function.update r.tx channel true }

theorem rx_enableReceiveChannel (line other : Line) (r : C1mr) :
    (r.enableReceiveChannel line).rx other = if other = line then false else r.rx other :=
  Function.update_apply r.rx line false other

end C1mr

variable {P : Line → Type}

structure Controller (P : Line → Type) where
  c1mr : C1mr
  /-- `IPCC->C2TOC1SR`. -/
  systemEvent : Bool
  traces : Bool
  flag : Line → Bool
  /-- The events in `TracesEvtQueue`. -/
  tracesEvtQueue : Nat
  /-- `IPCC->C1TOC2SR`. -/
  sent : TxChannel → Bool
  buffer : (line : Line) → Option (P line)
  /-- The type of the packet in the buffer is `TL_OTACK_PKT_TYPE`. -/
  ackPkt : Line → Bool
  /-- What the M0 has sent, what was handed to the processing functions, and whether one of them
  is in progress; no program reads these. -/
  posted : (line : Line) → List (P line)
  handled : (line : Line) → List (P line)
  inside : Line → Bool

namespace Controller

def init : Controller P where
  c1mr := ⟨fun _ => false, fun _ => true⟩
  systemEvent := false
  traces := false
  flag _ := false
  tracesEvtQueue := 0
  sent _ := false
  buffer _ := none
  ackPkt _ := false
  posted _ := []
  handled _ := []
  inside _ := false

variable (m : Controller P)

def rxPending (line : Line) : Bool := m.flag line && !m.c1mr.rx line

def txPending (channel : TxChannel) : Bool := !m.sent channel && !m.c1mr.tx channel

def setFlag (channel : TxChannel) : Controller P :=
  { m with sent := Function.update m.sent channel true }

def clearFlag (line : Line) : Controller P :=
  { m with
    flag := Function.update m.flag line false
    inside := Function.update m.inside line false }

def setAckPkt (line : Line) : Controller P :=
  { m with ackPkt := Function.update m.ackPkt line true }

def storeC1MR (value : C1mr) : Controller P := { m with c1mr := value }

/-- `HW_IPCC_ZIGBEE_StackNotifEvtHandler` and `HW_IPCC_ZIGBEE_StackM0RequestHandler`, less the
functions of `app_zigbee.c` that they call. -/
def receive (line : Line) : Controller P := m.storeC1MR (m.c1mr.disableReceiveChannel line)

/-- `HW_IPCC_MM_SendFreeBuf`: a release that is still on its way is followed by another. -/
def sendFreeBuf : Controller P :=
  if m.sent .mmReleaseBuffer then m.storeC1MR (m.c1mr.enableTransmitChannel .mmReleaseBuffer)
  else m.setFlag .mmReleaseBuffer

inductive Wakes where
  | systemHciAsynchEvt
  | line (line : Line)

def rxWakes : Option Wakes :=
  if m.systemEvent then some .systemHciAsynchEvt
  else if m.rxPending .notify then some (.line .notify)
  else if m.rxPending .request then some (.line .request)
  else none

/-- `HW_IPCC_TRACES_EvtHandler`: each trace is released at once. -/
def tracesHandler : Controller P :=
  { sendFreeBuf^[m.tracesEvtQueue] m with traces := false, tracesEvtQueue := 0 }

def rxHandler : Controller P :=
  if m.systemEvent then { m with systemEvent := false }
  else if m.rxPending .notify then m.receive .notify
  else if m.rxPending .request then m.receive .request
  else if m.traces then m.tracesHandler
  else m

/-- The handlers behind `HW_IPCC_Tx_Handler`. That of the buffers sends those released since. -/
def transmitted (channel : TxChannel) : Controller P :=
  let m := m.storeC1MR (m.c1mr.disableTransmitChannel channel)
  if channel = .mmReleaseBuffer then m.setFlag channel else m

/-- What `HW_IPCC_Tx_Handler` does in any case: its `else` is missing after the system channel. -/
def txApplication : Controller P :=
  if m.txPending .zigbeeCmdAppli then m.transmitted .zigbeeCmdAppli
  else if m.txPending .mmReleaseBuffer then m.transmitted .mmReleaseBuffer
  else if m.txPending .hciAclData then m.transmitted .hciAclData
  else m

/-- `HW_IPCC_Tx_Handler`. The events that its handlers set are interrupts of their own. -/
def txHandler : Controller P :=
  if m.txPending .systemCmdRsp then (m.transmitted .systemCmdRsp).txApplication else m.txApplication

def post (line : Line) (message : P line) : Controller P :=
  if m.flag line then m
  else { m with
    flag := Function.update m.flag line true
    buffer := Function.update m.buffer line (some message)
    ackPkt := Function.update m.ackPkt line false
    posted := Function.update m.posted line (m.posted line ++ [message]) }

def hand (line : Line) (message : P line) : Controller P :=
  { m with
    handled := Function.update m.handled line (m.handled line ++ [message])
    inside := Function.update m.inside line true }

end Controller

/-- What happens beside the tasks: the interrupts, and what the M0 does. -/
inductive Source (P : Line → Type) where
  | rx
  | tx
  | post (line : Line) (message : P line)
  | postSystemEvent
  | postTrace
  /-- The M0 has taken a message. -/
  | take (channel : TxChannel)

def Source.apply : Source P → Controller P → Controller P
  | .rx, m => m.rxHandler
  | .tx, m => m.txHandler
  | .post line message, m => m.post line message
  | .postSystemEvent, m => { m with systemEvent := true }
  | .postTrace, m => { m with traces := true, tracesEvtQueue := m.tracesEvtQueue + 1 }
  | .take channel, m => { m with sent := Function.update m.sent channel false }

def Source.wakes : Source P → Controller P → Option Controller.Wakes
  | .rx, m => m.rxWakes
  | _, _ => none

/-! ## One line at a time -/

structure Wire (M : Type) where
  flag : Bool
  masked : Bool
  buffer : Option M
  ackPkt : Bool
  posted : List M
  handled : List M
  inside : Bool

inductive Wire.Posted {M : Type} (w : Wire M) : Wire M → Prop where
  | kept : Posted w w
  | posted (message : M) (free : w.flag = false) : Posted w
      { w with
        flag := true
        buffer := some message
        ackPkt := false
        posted := w.posted ++ [message] }

namespace Controller

def wire (m : Controller P) (line : Line) : Wire (P line) where
  flag := m.flag line
  masked := m.c1mr.rx line
  buffer := m.buffer line
  ackPkt := m.ackPkt line
  posted := m.posted line
  handled := m.handled line
  inside := m.inside line

variable (m : Controller P) (line : Line)

theorem wire_sendFreeBuf : m.sendFreeBuf.wire line = m.wire line := by
  unfold sendFreeBuf
  split <;> rfl

theorem wire_tracesHandler : m.tracesHandler.wire line = m.wire line := by
  have released : ∀ count, (sendFreeBuf^[count] m).wire line = m.wire line := by
    intro count
    induction count with
    | zero => rfl
    | succ count ih =>
      rw [Function.iterate_succ_apply', wire_sendFreeBuf]
      exact ih
  exact released m.tracesEvtQueue

theorem wire_transmitted (channel : TxChannel) : (m.transmitted channel).wire line = m.wire line := by
  unfold transmitted
  dsimp only
  split <;> rfl

theorem wire_txApplication : m.txApplication.wire line = m.wire line := by
  unfold txApplication
  split
  · exact wire_transmitted m line _
  · split
    · exact wire_transmitted m line _
    · split
      · exact wire_transmitted m line _
      · rfl

theorem wire_txHandler : m.txHandler.wire line = m.wire line := by
  unfold txHandler
  split
  · exact (wire_txApplication _ line).trans (wire_transmitted m line _)
  · exact wire_txApplication m line

theorem wire_receive (other : Line) : (m.receive other).wire line =
    if line = other then { m.wire line with masked := true } else m.wire line := by
  by_cases same : line = other
  · subst same
    simp [receive, storeC1MR, C1mr.disableReceiveChannel, wire]
  · simp [receive, storeC1MR, C1mr.disableReceiveChannel, same, wire]

theorem wire_setAckPkt (other : Line) : (m.setAckPkt other).wire line =
    if line = other then { m.wire line with ackPkt := true } else m.wire line := by
  by_cases same : line = other
  · subst same
    simp [setAckPkt, wire]
  · simp [setAckPkt, same, wire]

theorem wire_clearFlag (other : Line) : (m.clearFlag other).wire line =
    if line = other then { m.wire line with flag := false, inside := false } else m.wire line := by
  by_cases same : line = other
  · subst same
    simp [clearFlag, wire]
  · simp [clearFlag, same, wire]

theorem wire_hand (message : P line) : (m.hand line message).wire line =
    { m.wire line with handled := m.handled line ++ [message], inside := true } := by
  simp [hand, wire]

theorem wire_hand_other {other : Line} (message : P other) (apart : line ≠ other) :
    (m.hand other message).wire line = m.wire line := by
  simp [hand, wire, apart]

theorem wire_post (other : Line) (message : P other) :
    (m.wire line).Posted ((m.post other message).wire line) := by
  unfold post
  split
  · exact .kept
  · rename_i free
    by_cases same : line = other
    · subst same
      simpa [wire] using Wire.Posted.posted message (w := m.wire line) (Bool.eq_false_iff.mpr free)
    · simpa [wire, same] using Wire.Posted.kept (w := m.wire line)

end Controller

end Baelux.Ipcc
