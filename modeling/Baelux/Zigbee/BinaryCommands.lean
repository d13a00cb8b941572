import Baelux.Zigbee.ServerToServer

/-! Commands with bytes of any value: they are sent as strings, and which of them arrive whole. -/

namespace Baelux.Zigbee

open Buffer

def sw1Endpoint : BitVec 16 := 1

structure BinarySender extends Sender where
  clusterRemoteCmdId : Fin maxid
  parentAddr : BitVec 16
  malloc : (count : Nat) → Option (Buffer count)
  tmp3 : Buffer 3

/-- The common body of the senders in `app_zigbee_cmd.c`; `buf` is the rest of its object. -/
def commandBuffered (sender : BinarySender) (id : Fin maxid) (shortAddr : BitVec 16)
    (buf : List Byte) (size : BitVec 8) : Option Commanded := do
  let mBuf ← sender.mBuf.copy 0 buf size.toNat
  let mBuf ← mBuf.store size.toNat 0
  zbClusterClientCommandBroadcast sender.mClient id shortAddr (List.ofFn mBuf) sender.payload

def cmdBcC2s (sender : BinarySender) (buf : List Byte) (size : BitVec 8) : Option Commanded :=
  commandBuffered sender sender.clusterRemoteCmdId 0xfffd buf size

def cmdUcC2p (sender : BinarySender) (buf : List Byte) (size : BitVec 8) : Option Commanded :=
  commandBuffered sender sender.clusterRemoteCmdId sender.parentAddr buf size

def cmdUcS2s (sender : BinarySender) (buf : List Byte) (size : BitVec 8) (addr : BitVec 16) :
    Option Commanded :=
  commandBuffered sender sender.clusterDeviceTxId addr buf size

/-- `cmd_bc_s2s` for any buffer. -/
def cmdBcS2sBytes (sender : BinarySender) (buf : List Byte) (size : BitVec 8) : Option Commanded :=
  commandBuffered sender sender.clusterDeviceTxId 0xfffd buf size

def appZigbeeBroadcast2byteC2s (sender : BinarySender) (b1 b2 : Byte) : Option Commanded := do
  let tmp ← sender.tmp.store 0 b1
  let tmp ← tmp.store 1 b2
  cmdBcC2s sender (List.ofFn tmp) 2

/-- `APP_ZIGBEE_SendMultibytes`; a block that was not allocated cannot be written. -/
def appZigbeeSendMultibytes (sender : BinarySender) (b : List Byte) (size : BitVec 8)
    (nwkAddr : BitVec 16) (mode : Byte) : Option Commanded := do
  let buf ← sender.malloc (size.toNat + 1)
  let buf ← buf.copy 0 b size.toNat
  let buf ← buf.store size.toNat 0
  zbClusterClientCommand sender.mClient sender.clusterRemoteCmdId ⟨mode, sw1Endpoint, 0, nwkAddr, 0⟩
    (List.ofFn buf) sender.payload

def appZigbeeSend2bytes (sender : BinarySender) (b : List Byte) (nwkAddr : BitVec 16)
    (mode : Byte) : Option Commanded := do
  let b₀ ← b[0]?
  let b₁ ← b[1]?
  let tmp ← sender.tmp3.store 0 b₀
  let tmp ← tmp.store 1 b₁
  let tmp ← tmp.store 2 0
  zbClusterClientCommand sender.mClient sender.clusterRemoteCmdId ⟨mode, sw1Endpoint, 0, nwkAddr, 0⟩
    (List.ofFn tmp) sender.payload

inductive BinarySend where
  | cmdBcC2s
  | cmdUcC2p
  | cmdUcS2s (addr : BitVec 16)
  | cmdBcS2s
  | broadcast2byteC2s
  | sendMultibytes (nwkAddr : BitVec 16) (mode : Byte)
  | send2bytes (nwkAddr : BitVec 16) (mode : Byte)

namespace BinarySend

def perform (sender : BinarySender) (buf : List Byte) (size : BitVec 8) :
    BinarySend → Option Commanded
  | cmdBcC2s => Zigbee.cmdBcC2s sender buf size
  | cmdUcC2p => Zigbee.cmdUcC2p sender buf size
  | cmdUcS2s addr => Zigbee.cmdUcS2s sender buf size addr
  | cmdBcS2s => Zigbee.cmdBcS2sBytes sender buf size
  | broadcast2byteC2s => do
      let b1 ← buf[0]?
      let b2 ← buf[1]?
      appZigbeeBroadcast2byteC2s sender b1 b2
  | sendMultibytes nwkAddr mode => appZigbeeSendMultibytes sender buf size nwkAddr mode
  | send2bytes nwkAddr mode => appZigbeeSend2bytes sender buf nwkAddr mode

/-- Two functions always send two bytes. -/
def Takes (size : BitVec 8) : BinarySend → Prop
  | broadcast2byteC2s => size = 2
  | send2bytes _ _ => size = 2
  | _ => True

def Allocated (sender : BinarySender) (size : BitVec 8) : BinarySend → Prop
  | sendMultibytes _ _ => (sender.malloc (size.toNat + 1)).isSome
  | _ => True

end BinarySend

def Sees (req : ZbZclClusterCommandReq) (bytes : List Byte) : Prop :=
  ∀ callback src seqNum string, ∃ status received info,
    customLsCommandHandler (some callback) (req.delivered src seqNum) string =
        some ⟨status, [(received, info)]⟩ ∧
      received.Holds 0 (bytes ++ [0])

def Transparent (result : Option Commanded) (bytes : List Byte) : Prop :=
  (∃ status, result = some ⟨status, []⟩ ∧ status ≠ zclStatusSuccess) ∨
    ∃ status cluster req, result = some ⟨status, [(cluster, req)]⟩ ∧ Sees req bytes

variable {bytes front behind : List Byte}

/-! ## A string of bytes -/

theorem received_behind {string received : LongString}
    (whole : List.ofFn received = front ++ [0] ++ (List.ofFn string).drop (front.length + 1))
    {i : Nat} (beyond : front.length < i) (inside : i < 2049) : received.load i = string.load i := by
  have listed : ∀ array : LongString, (List.ofFn array)[i]? = array.load i := by
    intro array
    rw [load_of_lt inside, List.getElem?_ofFn, dif_pos inside]
  have text : (front ++ [0]).length = front.length + 1 := List.length_append
  calc
    received.load i = (front ++ [0] ++ (List.ofFn string).drop (front.length + 1))[i]? := by
      rw [← listed received, whole]
    _ = ((List.ofFn string).drop (front.length + 1))[i - (front.length + 1)]? := by
      rw [List.getElem?_append_right (by omega), text]
    _ = (List.ofFn string)[i]? := by
      rw [List.getElem?_drop, Nat.add_sub_cancel' beyond]
    _ = string.load i := listed string

/-- All bytes arrive if and only if none of them is 0. -/
theorem command_transparent_iff {size : Nat} {buffer : Buffer size}
    (held : buffer.Holds 0 (bytes ++ [0])) (short : bytes.length ≤ 255) (cluster : Nat)
    (dst : ZbApsAddr) (payload : Payload) :
    Transparent (commandTo cluster dst (List.ofFn buffer) payload) bytes ↔ 0 ∉ bytes := by
  have sent : ∀ text : List Byte, 0 ∉ text → text.length ≤ 255 → buffer.Holds 0 (text ++ [0]) →
      ∃ req, commandTo cluster dst (List.ofFn buffer) payload =
          some ⟨zclStatusSuccess, [(cluster, req)]⟩ ∧
        ∀ callback src seqNum string, ∃ status received info,
          customLsCommandHandler (some callback) (req.delivered src seqNum) string =
              some ⟨status, [(received, info)]⟩ ∧
            received.Holds 0 (text ++ [0]) ∧
            List.ofFn received = text ++ [0] ++ (List.ofFn string).drop (text.length + 1) := by
    intro text noNul few held
    have length : (BitVec.ofNat 16 text.length).toNat = text.length :=
      (BitVec.toNat_ofNat ..).trans (Nat.mod_eq_of_lt (by omega))
    rcases command_sends (held.ends noNul) cluster dst payload (by omega) with
      ⟨req, sends, command, shape⟩
    rw [length, List.take_length] at shape
    exact ⟨req, sends, payload_received command length (by omega) shape⟩
  constructor
  · intro transparent zero
    rcases List.eq_append_cons_of_mem zero with ⟨front, back, rfl, noNul⟩
    have start : buffer.Holds 0 (front ++ [0]) := by
      rw [List.append_assoc, List.cons_append, ← List.singleton_append, ← List.append_assoc] at held
      exact held.front
    have longer : front.length < (front ++ 0 :: back).length := by
      rw [List.length_append, List.length_cons]
      omega
    rcases sent front noNul (by omega) start with ⟨req, sends, receives⟩
    rcases transparent with ⟨status, refuses, _⟩ | ⟨status, cluster', req', sends', sees⟩
    · cases sends.symm.trans refuses
    · cases sends.symm.trans sends'
      -- a server whose string holds ones before
      rcases sees (fun _ _ => 0) ⟨0, 0, 0, 0, 0⟩ 0 (fun _ => 1) with ⟨_, received, _, handles, all⟩
      rcases receives (fun _ _ => 0) ⟨0, 0, 0, 0, 0⟩ 0 (fun _ => 1) with
        ⟨_, received', _, handles', _, whole⟩
      cases handles.symm.trans handles'
      have last := all (front ++ 0 :: back).length (by simp)
      have inside : (front ++ 0 :: back).length < 2049 := by omega
      rw [List.getElem_concat_length rfl, Nat.zero_add, received_behind whole longer inside,
        load_of_lt inside] at last
      exact absurd (Option.some.inj last) (by decide)
  · intro noNul
    rcases sent bytes noNul short held with ⟨req, sends, receives⟩
    right
    refine ⟨_, _, req, sends, ?_⟩
    intro callback src seqNum string
    rcases receives callback src seqNum string with ⟨status, received, info, handles, whole, _⟩
    exact ⟨status, received, info, handles, whole⟩

/-! ## The senders -/

theorem buffered_transparent_iff (sender : BinarySender) (id : Fin maxid) (shortAddr : BitVec 16)
    {buf : List Byte} {size : BitVec 8} (there : size.toNat ≤ buf.length) :
    Transparent (commandBuffered sender id shortAddr buf size) (buf.take size.toNat) ↔
      0 ∉ buf.take size.toNat := by
  have small := size.isLt
  have length := List.length_take_of_le there
  rcases copy_of_fits sender.mBuf there (show 0 + size.toNat ≤ 1024 by omega) with ⟨mBuf₀, copies⟩
  rcases store_of_lt mBuf₀ (show size.toNat < 1024 by omega) 0 with ⟨mBuf, ends⟩
  have sends : commandBuffered sender id shortAddr buf size =
      zbClusterClientCommandBroadcast sender.mClient id shortAddr (List.ofFn mBuf)
        sender.payload := by
    simp only [commandBuffered, copies, ends, Option.bind_eq_bind, Option.bind_some]
  rw [sends]
  exact command_transparent_iff (holds_terminated there copies ends) (by omega) _ _ _

theorem take_two (b₀ b₁ : Byte) (rest : List Byte) :
    (b₀ :: b₁ :: rest).take (2 : BitVec 8).toNat = [b₀, b₁] := rfl

theorem two_bytes {buf : List Byte} (there : (2 : BitVec 8).toNat ≤ buf.length) :
    ∃ b₀ b₁ rest, buf = b₀ :: b₁ :: rest := by
  rcases buf with _ | ⟨b₀, _ | ⟨b₁, rest⟩⟩
  · exact absurd there (by decide)
  · exact absurd there (by simp)
  · exact ⟨b₀, b₁, rest, rfl⟩

theorem broadcast2byte_transparent_iff (sender : BinarySender) (b₁ b₂ : Byte) :
    Transparent (appZigbeeBroadcast2byteC2s sender b₁ b₂) [b₁, b₂] ↔ 0 ∉ [b₁, b₂] := by
  rcases store_of_lt sender.tmp (show 0 < 10 by decide) b₁ with ⟨tmp₀, first⟩
  rcases store_of_lt tmp₀ (show 1 < 10 by decide) b₂ with ⟨tmp, second⟩
  have held : tmp.Holds 0 [b₁, b₂] := by
    apply Holds.cons
    · rw [load_store_other second Nat.zero_ne_one]
      exact load_stored first
    · exact Holds.cons (load_stored second) Holds.nil
  have bytes : (List.ofFn tmp).take 2 = [b₁, b₂] := held.ofFn
  have there : (2 : BitVec 8).toNat ≤ (List.ofFn tmp).length := by
    rw [List.length_ofFn]
    decide
  have sends : appZigbeeBroadcast2byteC2s sender b₁ b₂ = cmdBcC2s sender (List.ofFn tmp) 2 := by
    rw [appZigbeeBroadcast2byteC2s, Option.bind_eq_bind, first, Option.bind_some, second,
      Option.bind_some]
  have two : (2 : BitVec 8).toNat = 2 := rfl
  have buffered := buffered_transparent_iff sender sender.clusterRemoteCmdId 0xfffd there
  rw [two, bytes] at buffered
  rw [sends, cmdBcC2s]
  exact buffered

theorem sendMultibytes_transparent_iff (sender : BinarySender) {b : List Byte} {size : BitVec 8}
    (there : size.toNat ≤ b.length) (nwkAddr : BitVec 16) (mode : Byte) :
    Transparent (appZigbeeSendMultibytes sender b size nwkAddr mode) (b.take size.toNat) ↔
      (sender.malloc (size.toNat + 1)).isSome ∧ 0 ∉ b.take size.toNat := by
  have small := size.isLt
  have length := List.length_take_of_le there
  cases block : sender.malloc (size.toNat + 1) with
  | none =>
    have fails : appZigbeeSendMultibytes sender b size nwkAddr mode = none := by
      simp only [appZigbeeSendMultibytes, block, Option.bind_eq_bind, Option.bind_none]
    rw [fails]
    constructor
    · rintro (⟨_, wrong, _⟩ | ⟨_, _, _, wrong, _⟩) <;> cases wrong
    · intro allocated
      cases allocated.1
  | some buf =>
    rcases copy_of_fits buf there (show 0 + size.toNat ≤ size.toNat + 1 by omega) with ⟨buf₀, copies⟩
    rcases store_of_lt buf₀ (Nat.lt_succ_self size.toNat) 0 with ⟨buf₁, ends⟩
    have sends : appZigbeeSendMultibytes sender b size nwkAddr mode =
        zbClusterClientCommand sender.mClient sender.clusterRemoteCmdId
          ⟨mode, sw1Endpoint, 0, nwkAddr, 0⟩ (List.ofFn buf₁) sender.payload := by
      simp only [appZigbeeSendMultibytes, block, copies, ends, Option.bind_eq_bind, Option.bind_some]
    rw [sends, Option.isSome_some, eq_self, true_and]
    exact command_transparent_iff (holds_terminated there copies ends) (by omega) _ _ _

theorem send2bytes_transparent_iff (sender : BinarySender) (b₀ b₁ : Byte) (rest : List Byte)
    (nwkAddr : BitVec 16) (mode : Byte) :
    Transparent (appZigbeeSend2bytes sender (b₀ :: b₁ :: rest) nwkAddr mode) [b₀, b₁] ↔
      0 ∉ [b₀, b₁] := by
  rcases store_of_lt sender.tmp3 (show 0 < 3 by decide) b₀ with ⟨tmp₀, first⟩
  rcases store_of_lt tmp₀ (show 1 < 3 by decide) b₁ with ⟨tmp₁, second⟩
  rcases store_of_lt tmp₁ (show 2 < 3 by decide) 0 with ⟨tmp, third⟩
  have held : tmp.Holds 0 ([b₀, b₁] ++ [0]) := by
    apply Holds.cons
    · rw [load_store_other third (by decide), load_store_other second Nat.zero_ne_one]
      exact load_stored first
    · apply Holds.cons
      · rw [load_store_other third (by decide)]
        exact load_stored second
      · exact Holds.cons (load_stored third) Holds.nil
  have sends : appZigbeeSend2bytes sender (b₀ :: b₁ :: rest) nwkAddr mode =
      zbClusterClientCommand sender.mClient sender.clusterRemoteCmdId
        ⟨mode, sw1Endpoint, 0, nwkAddr, 0⟩ (List.ofFn tmp) sender.payload := by
    simp only [appZigbeeSend2bytes, List.getElem?_cons_zero, List.getElem?_cons_succ, first, second,
      third, Option.bind_eq_bind, Option.bind_some]
  rw [sends]
  exact command_transparent_iff held (by simp) _ _ _

/-- For every function that sends bytes, every buffer and every size: all bytes arrive, or the send
is refused, if and only if none of the bytes is 0 and the memory asked for is there. -/
theorem binary_transparent_iff (sender : BinarySender) (send : BinarySend) (buf : List Byte)
    (size : BitVec 8) (takes : send.Takes size) (there : size.toNat ≤ buf.length) :
    Transparent (send.perform sender buf size) (buf.take size.toNat) ↔
      send.Allocated sender size ∧ 0 ∉ buf.take size.toNat := by
  have plain : ∀ id shortAddr,
      Transparent (commandBuffered sender id shortAddr buf size) (buf.take size.toNat) ↔
        True ∧ 0 ∉ buf.take size.toNat := by
    intro id shortAddr
    rw [true_and]
    exact buffered_transparent_iff sender id shortAddr there
  cases send with
  | cmdBcC2s => exact plain _ _
  | cmdUcC2p => exact plain _ _
  | cmdUcS2s addr => exact plain _ _
  | cmdBcS2s => exact plain _ _
  | sendMultibytes nwkAddr mode => exact sendMultibytes_transparent_iff sender there nwkAddr mode
  | broadcast2byteC2s =>
    obtain rfl : size = 2 := takes
    rcases two_bytes there with ⟨b₀, b₁, rest, rfl⟩
    have sends : BinarySend.broadcast2byteC2s.perform sender (b₀ :: b₁ :: rest) 2 =
        appZigbeeBroadcast2byteC2s sender b₀ b₁ := by
      simp only [BinarySend.perform, List.getElem?_cons_zero, List.getElem?_cons_succ,
        Option.bind_eq_bind, Option.bind_some]
    have both := broadcast2byte_transparent_iff sender b₀ b₁
    rw [sends, take_two]
    exact both.trans (and_iff_right trivial).symm
  | send2bytes nwkAddr mode =>
    obtain rfl : size = 2 := takes
    rcases two_bytes there with ⟨b₀, b₁, rest, rfl⟩
    have sends : (BinarySend.send2bytes nwkAddr mode).perform sender (b₀ :: b₁ :: rest) 2 =
        appZigbeeSend2bytes sender (b₀ :: b₁ :: rest) nwkAddr mode := rfl
    have both := send2bytes_transparent_iff sender b₀ b₁ rest nwkAddr mode
    rw [sends, take_two]
    exact both.trans (and_iff_right trivial).symm

def plainSender : BinarySender :=
  ⟨⟨fun _ => ⟨0, 1⟩, 0, fun _ => 0, fun _ => 0, fun _ => 0⟩, 0, 0x1234, fun _ => some fun _ => 0,
    fun _ => 0⟩

theorem binary_transparent_iff_three : BinarySend.cmdBcC2s.Takes 3 ∧
    (Transparent (BinarySend.cmdBcC2s.perform plainSender [1, 2, 3] 3)
        ([1, 2, 3].take (3 : BitVec 8).toNat) ↔
      BinarySend.cmdBcC2s.Allocated plainSender 3 ∧
        (0 : Byte) ∉ [1, 2, 3].take (3 : BitVec 8).toNat) :=
  ⟨trivial, binary_transparent_iff plainSender .cmdBcC2s [1, 2, 3] 3 trivial (by decide)⟩

/-- The bytes 01 00 do not arrive. -/
theorem zero_byte_cut :
    ¬ Transparent (appZigbeeSend2bytes plainSender [1, 0] 0x1234 zbApsdeAddrmodeShort) [1, 0] := by
  intro transparent
  have noNul := (send2bytes_transparent_iff plainSender 1 0 [] 0x1234 zbApsdeAddrmodeShort).mp
    transparent
  exact absurd noNul (by decide)

end Baelux.Zigbee
