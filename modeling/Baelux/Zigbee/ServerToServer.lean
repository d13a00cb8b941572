import Baelux.Zigbee.ClusterClient
import Baelux.Zigbee.HexDigits

/-! `app_zigbee_cmd.c` and `device_tx_callback`: a device names another one by its address, and
which devices take the frame for theirs. -/

namespace Baelux.Zigbee

open Buffer

def cmdIndicate : Byte := 0xdb
def cmdDisconnect : Byte := 0xdc

/-! ## Sending -/

structure Sender where
  mClient : Fin maxid → Client
  clusterDeviceTxId : Fin maxid
  mBuf : Buffer 1024
  tmp : Buffer 10
  payload : Payload

/-- `sprintf` with the format `%4x` and its NUL. -/
def sprintf4x (addr : BitVec 16) : List Byte := (hexText addr.toNat).leftpad 4 0x20 ++ [0]

def cmdBcS2s (sender : Sender) (buf : Buffer 10) (size : Nat) : Option Commanded := do
  let mBuf ← sender.mBuf.copy 0 (List.ofFn buf) size
  let mBuf ← mBuf.store size 0
  zbClusterClientCommandBroadcast sender.mClient sender.clusterDeviceTxId 0xfffd (List.ofFn mBuf)
    sender.payload

def commandS2s (cmd : Byte) (sender : Sender) (addr : BitVec 16) : Option Commanded := do
  let tmp ← sender.tmp.store 0 cmd
  let tmp ← tmp.store 1 cmd
  let tmp ← tmp.copy 2 (sprintf4x addr) (sprintf4x addr).length
  cmdBcS2s sender tmp 6

def appZigbeeIndicateS2s (sender : Sender) (addr : BitVec 16) : Option Commanded :=
  commandS2s cmdIndicate sender addr

def appZigbeeLeaveS2s (sender : Sender) (addr : BitVec 16) : Option Commanded :=
  commandS2s cmdDisconnect sender addr

/-! ## Receiving -/

inductive DeviceAction where
  | onIndicateNextPair
  | onKickoutCurrentPair
  deriving DecidableEq, Repr

/-- `device_tx_callback`. It returns no status of its own. -/
def deviceTxCallback (myaddr : BitVec 16) (string : LongString) : List DeviceAction :=
  let recvaddr := strToU16 fun i => string ⟨2 + i, by omega⟩
  let cmd := string 0
  if cmd = cmdIndicate ∧ recvaddr = myaddr then [.onIndicateNextPair]
  else if cmd = cmdDisconnect ∧ recvaddr = myaddr then [.onKickoutCurrentPair]
  else []

structure Receiver where
  shortAddress : BitVec 16
  string : LongString
  status : ZclStatusCode

def Receiver.receive (receiver : Receiver) (dataInd : DataInd) : Option (List DeviceAction) :=
  (customLsCommandHandler (some fun _ _ => receiver.status) dataInd receiver.string).map
    fun handled => handled.calls.flatMap fun call => deviceTxCallback receiver.shortAddress call.1

/-- One frame is sent, and exactly the devices with the address act on it. -/
def Addresses (sent : Option Commanded) (receivers : Set Receiver) (target : BitVec 16)
    (action : DeviceAction) : Prop :=
  ∃ status cluster req, sent = some ⟨status, [(cluster, req)]⟩ ∧
    ∀ src seqNum, ∀ receiver ∈ receivers, receiver.receive (req.delivered src seqNum) =
      some (if receiver.shortAddress = target then [action] else [])

/-- What becomes of an address that is padded with blanks: each of them counts as -1. -/
def misread (target : BitVec 16) : BitVec 16 :=
  target - 0x1000 - (if target.toNat < 0x100 then 0x100 else 0) -
    (if target.toNat < 0x10 then 0x10 else 0)

/-! ## The address on the way -/

def padded (addr : BitVec 16) : List Byte := (hexText addr.toNat).leftpad 4 0x20

variable {addr target : BitVec 16}

theorem length_padded (addr : BitVec 16) : (padded addr).length = 4 := by
  have short := (length_hexText_le addr.toNat (Nat.succ_pos 3)).mpr addr.isLt
  rw [padded, List.length_leftpad]
  omega

theorem numeral_blanks (count : Nat) : numeral (List.replicate count 0x20) = -span count := by
  induction count with
  | zero => rfl
  | succ count ih =>
    have blank : char2val 0x20 = -1 := by decide
    rw [List.replicate_succ', numeral_concat, ih, blank, span]
    ring

theorem numeral_padded (addr : BitVec 16) : numeral (padded addr) =
    addr.toNat - 16 ^ (hexText addr.toNat).length * span (4 - (hexText addr.toNat).length) := by
  rw [padded, List.leftpad, numeral_append, numeral_blanks, numeral_hexText]
  ring

theorem padded_nonzero : 0 ∉ padded addr := by
  intro member
  rw [padded, List.leftpad, List.mem_append] at member
  rcases member with blank | digit
  · exact absurd (List.eq_of_mem_replicate blank) (by decide)
  · exact absurd (char2val_hexText digit) (by decide)

theorem numeral_padded_read (addr : BitVec 16) : BitVec.ofInt 16 (numeral (padded addr)) =
    if 0x1000 ≤ addr.toNat then addr else misread addr := by
  have one := length_hexText_le addr.toNat (Nat.succ_pos 0)
  have two := length_hexText_le addr.toNat (Nat.succ_pos 1)
  have three := length_hexText_le addr.toNat (Nat.succ_pos 2)
  have four := (length_hexText_le addr.toNat (Nat.succ_pos 3)).mpr addr.isLt
  have some_digit := length_hexText_pos addr.toNat
  have less : ∀ k : Int, BitVec.ofInt 16 (addr.toNat - k) = addr - BitVec.ofInt 16 k := by
    intro k
    rw [sub_eq_add_neg, BitVec.ofInt_add, BitVec.ofInt_neg, BitVec.ofInt_natCast,
      BitVec.ofNat_toNat, BitVec.setWidth_eq, BitVec.sub_eq_add_neg]
  rw [numeral_padded, less]
  by_cases digits : 0x1000 ≤ addr.toNat
  · have length : (hexText addr.toNat).length = 4 := by omega
    rw [length, if_pos digits]
    exact BitVec.sub_zero addr
  · rw [if_neg digits, misread]
    by_cases digits' : addr.toNat < 0x100
    · by_cases digits'' : addr.toNat < 0x10
      · have length : (hexText addr.toNat).length = 1 := by omega
        rw [length, if_pos digits', if_pos digits'', BitVec.sub_sub, BitVec.sub_sub]
        rfl
      · have length : (hexText addr.toNat).length = 2 := by omega
        rw [length, if_pos digits', if_neg digits'', BitVec.sub_sub, BitVec.sub_sub]
        rfl
    · have length : (hexText addr.toNat).length = 3 := by omega
      have digits'' : ¬ addr.toNat < 0x10 := by omega
      rw [length, if_neg digits', if_neg digits'', BitVec.sub_sub, BitVec.sub_sub]
      rfl

theorem misread_ne (short : addr.toNat < 0x1000) : misread addr ≠ addr := by
  intro same
  unfold misread at same
  split at same
  · split at same <;> bv_omega
  · split at same <;> bv_omega

def s2sText (cmd : Byte) (addr : BitVec 16) : List Byte := cmd :: cmd :: padded addr

theorem length_s2sText (cmd : Byte) (addr : BitVec 16) : (s2sText cmd addr).length = 6 := by
  rw [s2sText, List.length_cons, List.length_cons, length_padded]

theorem commandS2s_sends {cmd : Byte} (real : cmd ≠ 0) (sender : Sender) (addr : BitVec 16) :
    ∃ status cluster req, commandS2s cmd sender addr = some ⟨status, [(cluster, req)]⟩ ∧
      Reaches req (s2sText cmd addr) := by
  have length : (sprintf4x addr).length = 5 := by
    rw [sprintf4x, List.length_append, ← padded, length_padded, List.length_singleton]
  have first : 0 < 10 := by decide
  have second : 1 < 10 := by decide
  have room : 2 + (sprintf4x addr).length ≤ 10 := by omega
  rcases store_of_lt sender.tmp first cmd with ⟨tmp₀, stores⟩
  rcases store_of_lt tmp₀ second cmd with ⟨tmp₁, stores'⟩
  rcases copy_of_fits tmp₁ (Nat.le_refl (sprintf4x addr).length) room with ⟨tmp, prints⟩
  have printed : (List.ofFn tmp).take 6 = s2sText cmd addr := by
    have held := holds_headed stores stores' prints
    rw [List.take_length] at held
    have text : tmp.Holds 0 (s2sText cmd addr) := Holds.front held
    exact length_s2sText cmd addr ▸ text.ofFn
  have six : 6 ≤ (List.ofFn tmp).length := by
    rw [List.length_ofFn]
    decide
  have room' : 0 + 6 ≤ 1024 := by decide
  have seventh : 6 < 1024 := by decide
  rcases copy_of_fits sender.mBuf six room' with ⟨mBuf₀, copies⟩
  rcases store_of_lt mBuf₀ seventh 0 with ⟨mBuf, ends⟩
  have noNul : 0 ∉ s2sText cmd addr := by
    rw [s2sText, List.mem_cons, List.mem_cons, not_or, not_or]
    exact ⟨real.symm, real.symm, padded_nonzero⟩
  have named : cString (List.ofFn mBuf) = some (s2sText cmd addr) := by
    have held := holds_terminated six copies ends
    rw [printed] at held
    exact held.ends noNul
  have sends : commandS2s cmd sender addr = zbClusterClientCommandBroadcast sender.mClient
      sender.clusterDeviceTxId 0xfffd (List.ofFn mBuf) sender.payload := by
    rw [commandS2s, Option.bind_eq_bind, stores, Option.bind_some, stores', Option.bind_some, prints,
      Option.bind_some, cmdBcS2s, Option.bind_eq_bind, copies, Option.bind_some, ends,
      Option.bind_some]
  have short : (s2sText cmd addr).length ≤ 2048 := by
    rw [length_s2sText]
    decide
  rw [sends]
  rcases (command_round_trips_iff named _ _ sender.payload).mpr (.inl short) with
    ⟨_, long⟩ | ⟨status, cluster, req, result, _, _, reaches⟩
  · exact absurd long (Nat.not_lt.mpr short)
  · exact ⟨status, cluster, req, result, reaches⟩

def actionsOf (cmd : Byte) : List DeviceAction :=
  if cmd = cmdIndicate then [.onIndicateNextPair]
  else if cmd = cmdDisconnect then [.onKickoutCurrentPair]
  else []

/-- The four characters behind the command that the callback takes for an address. -/
def window (string : LongString) : List Byte := List.ofFn fun i : Fin 4 => string ⟨2 + i, by omega⟩

theorem deviceTxCallback_eq (myaddr : BitVec 16) (string : LongString) :
    deviceTxCallback myaddr string =
      if BitVec.ofInt 16 (numeral (window string)) = myaddr then actionsOf (string 0) else [] := by
  simp only [deviceTxCallback, strToU16_numeral, window, actionsOf]
  by_cases named : BitVec.ofInt 16 (numeral (window string)) = myaddr
  · rw [window] at named
    simp only [named, and_true, ↓reduceIte]
  · rw [window] at named
    simp only [named, and_false, ↓reduceIte]

theorem receive_s2s {cmd : Byte} {req : ZbZclClusterCommandReq}
    (reaches : Reaches req (s2sText cmd addr)) (receiver : Receiver) (src : ZbApsAddr)
    (seqNum : Byte) : receiver.receive (req.delivered src seqNum) =
      some (if (if 0x1000 ≤ addr.toNat then addr else misread addr) = receiver.shortAddress
        then actionsOf cmd else []) := by
  obtain ⟨status, received, info, handles, named⟩ :=
    reaches (fun _ _ => receiver.status) src seqNum receiver.string
  have held := Buffer.holds_text named
  have first : received 0 = cmd := Option.some.inj (held.head)
  have digits : window received = padded addr := held.tail.tail.window (length_padded addr) _
  have acts := deviceTxCallback_eq receiver.shortAddress received
  rw [first, digits, numeral_padded_read] at acts
  rw [Receiver.receive, handles, Option.map_some, List.flatMap_singleton]
  exact congrArg some acts

/-- The devices that act are the ones with the address when it fills the four characters, or when
neither that address nor the misread one is theirs. -/
theorem commandS2s_addresses_iff {cmd : Byte} {action : DeviceAction} (real : cmd ≠ 0)
    (asks : actionsOf cmd = [action]) (sender : Sender) (receivers : Set Receiver)
    (target : BitVec 16) : Addresses (commandS2s cmd sender target) receivers target action ↔
      0x1000 ≤ target.toNat ∨ ∀ receiver ∈ receivers,
        receiver.shortAddress ≠ target ∧ receiver.shortAddress ≠ misread target := by
  rcases commandS2s_sends real sender target with ⟨status, cluster, req, sends, reaches⟩
  have receive := receive_s2s reaches
  rw [asks] at receive
  by_cases wide : 0x1000 ≤ target.toNat
  · refine ⟨fun _ => .inl wide, fun _ => ⟨status, cluster, req, sends, ?_⟩⟩
    intro src seqNum receiver _
    rw [receive, if_pos wide]
    simp only [eq_comm]
  · simp only [wide, ↓reduceIte] at receive
    have apart : misread target ≠ target := misread_ne (Nat.lt_of_not_le wide)
    constructor
    · intro holds
      rcases holds with ⟨_, _, _, sends', delivered⟩
      cases sends.symm.trans sends'
      right
      intro receiver member
      have same := (receive receiver ⟨0, 0, 0, 0, 0⟩ 0).symm.trans (delivered _ _ receiver member)
      constructor
      · intro same
        subst same
        rw [if_neg apart, if_pos rfl] at same
        cases same
      · intro taken
        rw [taken, if_pos rfl, if_neg apart] at same
        cases same
    · intro condition
      have nobody := condition.resolve_left wide
      refine ⟨status, cluster, req, sends, ?_⟩
      intro src seqNum receiver member
      rcases nobody receiver member with ⟨other, other'⟩
      rw [receive, if_neg other'.symm, if_neg other]

/-- Any sender, any set of receivers and any target: the frames of both commands reach exactly the
target unless its address begins with a zero digit and somebody is misled by it. -/
theorem server_commands_address_iff (sender : Sender) (receivers : Set Receiver)
    (target : BitVec 16) :
    (Addresses (appZigbeeIndicateS2s sender target) receivers target .onIndicateNextPair ↔
      0x1000 ≤ target.toNat ∨ ∀ receiver ∈ receivers,
        receiver.shortAddress ≠ target ∧ receiver.shortAddress ≠ misread target) ∧
    (Addresses (appZigbeeLeaveS2s sender target) receivers target .onKickoutCurrentPair ↔
      0x1000 ≤ target.toNat ∨ ∀ receiver ∈ receivers,
        receiver.shortAddress ≠ target ∧ receiver.shortAddress ≠ misread target) := by
  constructor
  · exact commandS2s_addresses_iff (by decide) rfl sender receivers target
  · exact commandS2s_addresses_iff (by decide) rfl sender receivers target

/-- Device 0x0123 does not take the frame for its own. -/
theorem leading_zero_missed : ¬ Addresses
    (appZigbeeIndicateS2s ⟨fun _ => ⟨0, 1⟩, 0, fun _ => 0, fun _ => 0, fun _ => 0⟩ 0x0123)
    {⟨0x0123, fun _ => 0, 0⟩} 0x0123 .onIndicateNextPair := by
  intro addresses
  rcases (commandS2s_addresses_iff (by decide) rfl _ _ _).mp addresses with wide | nobody
  · exact absurd wide (by decide)
  · exact (nobody _ (Set.mem_singleton _)).1 rfl

end Baelux.Zigbee
