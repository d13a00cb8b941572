import Baelux.Library.Buffer
import Mathlib.Logic.Function.Basic
import Mathlib.Data.Fintype.Defs

/-! `user_rtc.c`: the registers of the clock chip and the bytes cached of them, and when an
operation does what it says. The conversions between numbers and BCD are those of `PCF8563.h`. -/

namespace Baelux.User.Rtc

inductive Reg where
  | reg0 | reg1 | reg2 | reg3 | reg4 | reg5 | reg6 | reg7
  | reg8 | reg9 | regA | regB | regC | regD | regE | regF
  deriving DecidableEq, Repr

def Reg.all : List Reg :=
  [.reg0, .reg1, .reg2, .reg3, .reg4, .reg5, .reg6, .reg7, .reg8, .reg9, .regA, .regB, .regC, .regD,
    .regE, .regF]

instance : Fintype Reg where
  elems := ⟨Reg.all, by decide⟩
  complete := by
    intro reg
    cases reg <;> decide

/-- The chip, the cached bytes of the `reg_*` objects, and which of the coming transfers on the
bus succeed. -/
structure RtcState where
  chip : Reg → Byte
  cached : Reg → Byte
  bus : Nat → Bool

def readRegister (s : RtcState) (reg : Reg) : Byte × RtcState :=
  let bus := fun n => s.bus (n + 1)
  if s.bus 0 then
    (s.chip reg, { s with cached := Function.update s.cached reg (s.chip reg), bus := bus })
  else (0xff, { s with bus := bus })

/-- The cached byte is sent, and the data is not looked at. -/
def writeRegister (s : RtcState) (reg : Reg) (_data : Byte) : Bool × RtcState :=
  let bus := fun n => s.bus (n + 1)
  if s.bus 0 then
    (true, { s with chip := Function.update s.chip reg (s.cached reg), bus := bus })
  else (false, { s with bus := bus })

inductive Write where
  /-- `writeRegister(reg, data)` -/
  | put (reg : Reg) (data : Byte)
  /-- `writeRegister(reg, f(readRegister(reg)))` -/
  | modify (reg : Reg) (f : Byte → Byte)

namespace Write

def reg : Write → Reg
  | put reg _ => reg
  | modify reg _ => reg

def perform (s : RtcState) : Write → RtcState
  | put reg data => (writeRegister s reg data).2
  | modify reg f =>
      let (value, s) := readRegister s reg
      (writeRegister s reg (f value)).2

end Write

def performAll (s : RtcState) (writes : List Write) : RtcState := writes.foldl Write.perform s

def changeIntToHex (value : Int) : Byte := BitVec.ofInt 8 (value.tdiv 10 * 16 + value.tmod 10)

def changeHexToInt (value : Byte) : Byte := (value >>> 4) * 10 + (value &&& 0x0f)

/-! ## The operations that write -/

/-- The minutes go to the register of the minute alarm. -/
def userRtcSetTime (hour minute second : Int) : List Write :=
  (if 0 ≤ hour then [.put .reg4 (changeIntToHex (hour.tmod 60))] else []) ++
  (if 0 ≤ minute then [.put .reg9 (changeIntToHex (minute.tmod 60))] else []) ++
  (if 0 ≤ second then [.put .reg2 (changeIntToHex (second.tmod 60))] else [])

def userRtcSetDays (year months days : Int) : List Write :=
  (if 0 ≤ days ∧ days ≤ 31 then [.put .reg5 (changeIntToHex days)] else []) ++
  (if 0 ≤ months ∧ months ≤ 12 then
    [.modify .reg7 fun value => (value &&& 0x80) ||| changeIntToHex months] else []) ++
  (if 1900 ≤ year ∧ year < 2000 then
    [.modify .reg7 (· ||| 0x80), .put .reg8 (BitVec.ofInt 8 (year.tmod 100))]
  else if 2000 ≤ year ∧ year < 3000 then
    [.modify .reg7 (· &&& 0x7f), .put .reg8 (BitVec.ofInt 8 (year.tmod 100))]
  else [])

def userRtcSetWeekData (weekData : Int) : List Write :=
  if weekData ≤ 7 then [.put .reg6 (BitVec.ofInt 8 weekData)] else []

def userRtcSetAlarm (hour minute : Int) : List Write :=
  (if 0 ≤ minute then [.put .reg9 (changeIntToHex minute)] else []) ++
  (if 0 ≤ hour then [.put .regA (changeIntToHex hour)] else [])

def userRtcAlarmEnable : List Write :=
  [.modify .reg1 (· ||| 0x02), .modify .reg9 (· &&& 0x7f), .modify .regA (· &&& 0x7f),
    .put .regB 0x80, .put .regC 0x80]

def userRtcAlarmDisable : List Write :=
  [.modify .reg1 (· &&& 0xfd), .modify .reg9 (· ||| 0x80), .modify .regA (· ||| 0x80),
    .put .regB 0x80, .put .regC 0x80]

def userRtcSetTimer (timerFrequency : Int) (value : Byte) : List Write :=
  if timerFrequency < 0 ∨ 3 < timerFrequency then []
  else [.put .regF value,
    .modify .regE fun value => (value &&& 0xfc) ||| BitVec.ofInt 8 timerFrequency]

def userRtcTimerEnable : List Write := [.modify .reg1 (· ||| 0x01), .modify .regE (· ||| 0x80)]

def userRtcTimerDisable : List Write := [.modify .reg1 (· &&& 0xfe), .modify .regE (· &&& 0x7f)]

def userRtcCleareAFFlag : List Write := [.modify .reg1 (· &&& 0xf7)]

def userRtcCleareTFFlag : List Write := [.modify .reg1 (· &&& 0xfb)]

def userRtcClkoutFrequencyHZ (frequency : Int) : List Write :=
  if frequency < 0 ∨ 3 < frequency then []
  else [.modify .regD fun value => (value &&& 0xfc) ||| BitVec.ofInt 8 frequency]

def userRtcClkoutEnable : List Write := [.modify .regD (· ||| 0x80)]

def userRtcClkoutDisable : List Write := [.modify .regD (· &&& 0x7f)]

def pcf8563Init : List Write :=
  [.put .reg0 0x00, .put .reg1 0x00] ++ userRtcTimerDisable ++ userRtcAlarmDisable

/-! ## The operations that read -/

def userRtcVerify (s : RtcState) : Bool × RtcState :=
  let s := (readRegister s .reg0).2
  (s.cached .reg0 != 0xff, s)

def userRtcInit (s : RtcState) : Bool × RtcState :=
  let (verified, s) := userRtcVerify s
  if verified then (true, performAll s pcf8563Init) else (false, s)

def userRtcGetDays (s : RtcState) : List Byte × RtcState :=
  let (day, s) := readRegister s .reg5
  let (month, s) := readRegister s .reg7
  let (year, s) := readRegister s .reg8
  let (century, s) := readRegister s .reg7
  ([changeHexToInt (day &&& 0x3f), changeHexToInt (month &&& 0x1f), year &&& 0xff,
    if century &&& 0x80 ≠ 0 then 19 else 20], s)

def userRtcGetTime (s : RtcState) : List Byte × RtcState :=
  let (second, s) := readRegister s .reg2
  let (minute, s) := readRegister s .reg3
  let (hour, s) := readRegister s .reg4
  ([changeHexToInt (second &&& 0x7f), changeHexToInt (minute &&& 0x7f),
    changeHexToInt (hour &&& 0x3f)], s)

def userRtcGetFlag (s : RtcState) : Byte × RtcState :=
  let (alarm, s) := readRegister s .reg1
  let temp : Byte := if alarm &&& 0x08 ≠ 0 then 0x01 else 0
  let (timer, s) := readRegister s .reg1
  (if timer &&& 0x04 ≠ 0 then temp ||| 0x02 else temp, s)

/-! ## What the operations are for -/

structure TimeOfDay where
  hour : Nat
  minute : Nat
  second : Nat
  hourRange : hour ≤ 23
  minuteRange : minute ≤ 60
  secondRange : second ≤ 60

structure Date where
  year : Nat
  months : Nat
  days : Nat
  yearRange : 1990 ≤ year ∧ year ≤ 2099
  monthsRange : 1 ≤ months ∧ months ≤ 12
  daysRange : days ≤ 31

def TimeOfDay.buf (time : TimeOfDay) : List Byte :=
  [BitVec.ofNat 8 time.second, BitVec.ofNat 8 time.minute, BitVec.ofNat 8 time.hour]

def Date.buf (date : Date) : List Byte :=
  [BitVec.ofNat 8 date.days, BitVec.ofNat 8 date.months, BitVec.ofNat 8 (date.year % 100),
    BitVec.ofNat 8 (date.year / 100)]

/-- The operations, and the chip by itself: its clock runs and its flags are set. -/
inductive RtcOp where
  | init
  | setTime (time : TimeOfDay)
  | getTime
  | setDays (date : Date)
  | getDays
  | setWeekData (weekData : Fin 8)
  | setAlarm (hour : Fin 24) (minute : Fin 60)
  | alarmEnable
  | alarmDisable
  | setTimer (timerFrequency : Fin 4) (value : Byte)
  | timerEnable
  | timerDisable
  | cleareAFFlag
  | cleareTFFlag
  | getFlag
  | clkoutFrequencyHZ (frequency : Fin 4)
  | clkoutEnable
  | clkoutDisable
  | chipChanges (registers : Reg → Byte)

structure Bits where
  set : Byte
  cleared : Byte
  deriving DecidableEq

def Bits.apply (bits : Bits) (value : Byte) : Byte := (value ||| bits.set) &&& ~~~bits.cleared

namespace RtcOp

def perform (s : RtcState) : RtcOp → RtcState
  | init => (userRtcInit s).2
  | setTime time => performAll s (userRtcSetTime time.hour time.minute time.second)
  | getTime => (userRtcGetTime s).2
  | setDays date => performAll s (userRtcSetDays date.year date.months date.days)
  | getDays => (userRtcGetDays s).2
  | setWeekData weekData => performAll s (userRtcSetWeekData weekData)
  | setAlarm hour minute => performAll s (userRtcSetAlarm hour minute)
  | alarmEnable => performAll s userRtcAlarmEnable
  | alarmDisable => performAll s userRtcAlarmDisable
  | setTimer timerFrequency value => performAll s (userRtcSetTimer timerFrequency value)
  | timerEnable => performAll s userRtcTimerEnable
  | timerDisable => performAll s userRtcTimerDisable
  | cleareAFFlag => performAll s userRtcCleareAFFlag
  | cleareTFFlag => performAll s userRtcCleareTFFlag
  | getFlag => (userRtcGetFlag s).2
  | clkoutFrequencyHZ frequency => performAll s (userRtcClkoutFrequencyHZ frequency)
  | clkoutEnable => performAll s userRtcClkoutEnable
  | clkoutDisable => performAll s userRtcClkoutDisable
  | chipChanges registers => { s with chip := registers }

def own : RtcOp → Option (Reg → Bits)
  | alarmEnable => some fun
      | .reg1 => ⟨0x02, 0⟩
      | .reg9 | .regA => ⟨0, 0x80⟩
      | .regB | .regC => ⟨0x80, 0x7f⟩
      | _ => ⟨0, 0⟩
  | alarmDisable => some fun
      | .reg1 => ⟨0, 0x02⟩
      | .reg9 | .regA => ⟨0x80, 0⟩
      | .regB | .regC => ⟨0x80, 0x7f⟩
      | _ => ⟨0, 0⟩
  | timerEnable => some fun
      | .reg1 => ⟨0x01, 0⟩
      | .regE => ⟨0x80, 0⟩
      | _ => ⟨0, 0⟩
  | timerDisable => some fun
      | .reg1 => ⟨0, 0x01⟩
      | .regE => ⟨0, 0x80⟩
      | _ => ⟨0, 0⟩
  | cleareAFFlag => some fun
      | .reg1 => ⟨0, 0x08⟩
      | _ => ⟨0, 0⟩
  | cleareTFFlag => some fun
      | .reg1 => ⟨0, 0x04⟩
      | _ => ⟨0, 0⟩
  | clkoutEnable => some fun
      | .regD => ⟨0x80, 0⟩
      | _ => ⟨0, 0⟩
  | clkoutDisable => some fun
      | .regD => ⟨0, 0x80⟩
      | _ => ⟨0, 0⟩
  | _ => none

def time (before : Option TimeOfDay) : RtcOp → Option TimeOfDay
  | setTime time => some time
  | chipChanges _ => none
  | _ => before

def date (before : Option Date) : RtcOp → Option Date
  | setDays date => some date
  | chipChanges _ => none
  | _ => before

/-- An operation with bits of its own changes these and nothing else on the chip. -/
def KeepsToItsBits (s : RtcState) (op : RtcOp) : Prop :=
  ∀ own ∈ op.own, (op.perform s).chip = fun reg => (own reg).apply (s.chip reg)

end RtcOp

def Shows (s : RtcState) (time : Option TimeOfDay) (date : Option Date) : Prop :=
  (∀ set ∈ time, (userRtcGetTime s).1 = set.buf) ∧ ∀ set ∈ date, (userRtcGetDays s).1 = set.buf

def Disciplined : RtcState → Option TimeOfDay → Option Date → List RtcOp → Prop
  | s, time, date, [] => Shows s time date
  | s, time, date, op :: rest =>
      Shows s time date ∧ op.KeepsToItsBits s ∧
        Disciplined (op.perform s) (op.time time) (op.date date) rest

/-! ## When they do it -/

def RtcState.Has (s : RtcState) (reg : Reg) (bits : Bits) : Prop :=
  bits.apply (s.chip reg) = s.chip reg

/-- Nothing that is computed reaches the chip: what a register is to hold is there before, or it
is the cached byte where the operation does not read the register first. -/
def RtcOp.Fits (s : RtcState) : RtcOp → Prop
  | .setTime time =>
      changeHexToInt (s.cached .reg2 &&& 0x7f) = BitVec.ofNat 8 time.second ∧
        changeHexToInt (s.chip .reg3 &&& 0x7f) = BitVec.ofNat 8 time.minute ∧
        changeHexToInt (s.cached .reg4 &&& 0x3f) = BitVec.ofNat 8 time.hour
  | .setDays date =>
      changeHexToInt (s.cached .reg5 &&& 0x3f) = BitVec.ofNat 8 date.days ∧
        changeHexToInt (s.chip .reg7 &&& 0x1f) = BitVec.ofNat 8 date.months ∧
        s.cached .reg8 = BitVec.ofNat 8 (date.year % 100) ∧
        (s.chip .reg7 &&& 0x80 ≠ 0 ↔ date.year < 2000)
  | .alarmEnable =>
      s.Has .reg1 ⟨0x02, 0⟩ ∧ s.Has .reg9 ⟨0, 0x80⟩ ∧ s.Has .regA ⟨0, 0x80⟩ ∧
        s.cached .regB = 0x80 ∧ s.cached .regC = 0x80
  | .alarmDisable =>
      s.Has .reg1 ⟨0, 0x02⟩ ∧ s.Has .reg9 ⟨0x80, 0⟩ ∧ s.Has .regA ⟨0x80, 0⟩ ∧
        s.cached .regB = 0x80 ∧ s.cached .regC = 0x80
  | .timerEnable => s.Has .reg1 ⟨0x01, 0⟩ ∧ s.Has .regE ⟨0x80, 0⟩
  | .timerDisable => s.Has .reg1 ⟨0, 0x01⟩ ∧ s.Has .regE ⟨0, 0x80⟩
  | .cleareAFFlag => s.Has .reg1 ⟨0, 0x08⟩
  | .cleareTFFlag => s.Has .reg1 ⟨0, 0x04⟩
  | .clkoutEnable => s.Has .regD ⟨0x80, 0⟩
  | .clkoutDisable => s.Has .regD ⟨0, 0x80⟩
  | _ => True

def AllFit : RtcState → List RtcOp → Prop
  | _, [] => True
  | s, op :: rest => op.Fits s ∧ AllFit (op.perform s) rest

/-! ## Writes over a bus that works -/

section Writes

variable {chip cached : Reg → Byte}

def reliable : Nat → Bool := fun _ => true

@[simp] theorem readRegister_reliable (chip cached : Reg → Byte) (reg : Reg) :
    readRegister ⟨chip, cached, reliable⟩ reg =
      (chip reg, ⟨chip, Function.update cached reg (chip reg), reliable⟩) := rfl

@[simp] theorem writeRegister_reliable (chip cached : Reg → Byte) (reg : Reg) (data : Byte) :
    writeRegister ⟨chip, cached, reliable⟩ reg data =
      (true, ⟨Function.update chip reg (cached reg), cached, reliable⟩) := rfl

def blindly : List Write → Reg → Bool
  | [], _ => false
  | .put written _ :: rest, reg => written = reg || blindly rest reg
  | .modify written _ :: rest, reg => written ≠ reg && blindly rest reg

theorem keeps_of_none {s : RtcState} {op : RtcOp} (none_own : op.own = none) :
    op.KeepsToItsBits s := by
  intro own member
  rw [none_own] at member
  cases member

theorem modify_reliable (chip cached : Reg → Byte) (reg : Reg) (f : Byte → Byte) :
    Write.perform ⟨chip, cached, reliable⟩ (.modify reg f) =
      ⟨chip, Function.update cached reg (chip reg), reliable⟩ := by
  simp only [Write.perform, readRegister_reliable, writeRegister_reliable, Function.update_self,
    Function.update_eq_self]

theorem performAll_reliable (writes : List Write) (chip cached : Reg → Byte) :
    ∃ cached', performAll ⟨chip, cached, reliable⟩ writes =
      ⟨fun reg => if blindly writes reg then cached reg else chip reg, cached', reliable⟩ := by
  induction writes generalizing chip cached with
  | nil => exact ⟨cached, rfl⟩
  | cons write rest ih =>
      cases write with
      | put written data =>
          rcases ih (Function.update chip written (cached written)) cached with ⟨cached', performed⟩
          refine ⟨cached', performed.trans ?_⟩
          congr 1
          funext reg
          by_cases here : written = reg
          · subst here
            simp [blindly]
          · simp [blindly, here, Function.update_of_ne (Ne.symm here)]
      | modify written f =>
          rcases ih chip (Function.update cached written (chip written)) with ⟨cached', performed⟩
          refine ⟨cached', ?_⟩
          rw [performAll, List.foldl_cons, modify_reliable]
          apply performed.trans
          congr 1
          funext reg
          by_cases here : written = reg
          · subst here
            simp [blindly]
          · simp [blindly, here, Function.update_of_ne (Ne.symm here)]

def shownTime (chip : Reg → Byte) : List Byte :=
  [changeHexToInt (chip .reg2 &&& 0x7f), changeHexToInt (chip .reg3 &&& 0x7f),
    changeHexToInt (chip .reg4 &&& 0x3f)]

def shownDays (chip : Reg → Byte) : List Byte :=
  [changeHexToInt (chip .reg5 &&& 0x3f), changeHexToInt (chip .reg7 &&& 0x1f), chip .reg8 &&& 0xff,
    if chip .reg7 &&& 0x80 ≠ 0 then 19 else 20]

theorem userRtcGetTime_reliable (chip cached : Reg → Byte) :
    ∃ cached', userRtcGetTime ⟨chip, cached, reliable⟩ =
      (shownTime chip, ⟨chip, cached', reliable⟩) := ⟨_, rfl⟩

theorem userRtcGetDays_reliable (chip cached : Reg → Byte) :
    ∃ cached', userRtcGetDays ⟨chip, cached, reliable⟩ =
      (shownDays chip, ⟨chip, cached', reliable⟩) := ⟨_, rfl⟩

theorem userRtcGetFlag_reliable (chip cached : Reg → Byte) :
    ∃ cached', (userRtcGetFlag ⟨chip, cached, reliable⟩).2 = ⟨chip, cached', reliable⟩ := ⟨_, rfl⟩

theorem shows_iff {time : Option TimeOfDay} {date : Option Date} :
    Shows ⟨chip, cached, reliable⟩ time date ↔
      (∀ set ∈ time, shownTime chip = set.buf) ∧ ∀ set ∈ date, shownDays chip = set.buf :=
  Iff.rfl

def Reg.OfTime (reg : Reg) : Prop := reg = .reg2 ∨ reg = .reg3 ∨ reg = .reg4

def Reg.OfDate (reg : Reg) : Prop := reg = .reg5 ∨ reg = .reg7 ∨ reg = .reg8

instance (reg : Reg) : Decidable reg.OfTime := instDecidableOr

instance (reg : Reg) : Decidable reg.OfDate := instDecidableOr

theorem shownTime_frame {chip' : Reg → Byte}
    (same : ∀ reg : Reg, reg.OfTime → chip' reg = chip reg) : shownTime chip' = shownTime chip := by
  have second := same .reg2 (by decide)
  have minute := same .reg3 (by decide)
  have hour := same .reg4 (by decide)
  simp only [shownTime, second, minute, hour]

theorem shownDays_frame {chip' : Reg → Byte}
    (same : ∀ reg : Reg, reg.OfDate → chip' reg = chip reg) : shownDays chip' = shownDays chip := by
  have day := same .reg5 (by decide)
  have month := same .reg7 (by decide)
  have year := same .reg8 (by decide)
  simp only [shownDays, day, month, year]

theorem shows_performAll {time : Option TimeOfDay} {date : Option Date} {writes : List Write}
    (shows : Shows ⟨chip, cached, reliable⟩ time date)
    (apart : ∀ reg : Reg, reg.OfTime ∨ reg.OfDate → blindly writes reg = false) :
    Shows (performAll ⟨chip, cached, reliable⟩ writes) time date := by
  rcases performAll_reliable writes chip cached with ⟨cached', performed⟩
  have same : ∀ reg : Reg, reg.OfTime ∨ reg.OfDate →
      (if blindly writes reg then cached reg else chip reg) = chip reg := by
    intro reg clock
    rw [apart reg clock]
    rfl
  rw [performed, shows_iff, shownTime_frame fun reg ofTime => same reg (Or.inl ofTime),
    shownDays_frame fun reg ofDate => same reg (Or.inr ofDate)]
  exact shows

end Writes

/-! ## One operation -/

section Operations

variable {chip cached : Reg → Byte} {time : Option TimeOfDay} {date : Option Date}

theorem bits_none (value : Byte) : Bits.apply ⟨0, 0⟩ value = value := by
  revert value
  decide

theorem bits_all (value : Byte) : Bits.apply ⟨0x80, 0x7f⟩ value = 0x80 := by
  revert value
  decide

theorem bits_all_iff {value held : Byte} :
    Bits.apply ⟨128#8, 127#8⟩ value = held ↔ held = 128#8 := by
  have all : Bits.apply ⟨128#8, 127#8⟩ value = 128#8 := bits_all value
  rw [all]
  exact eq_comm

theorem keeps_iff {op : RtcOp} {own : Reg → Bits} {writes : List Write} (named : op.own = some own)
    (performs : op.perform ⟨chip, cached, reliable⟩ = performAll ⟨chip, cached, reliable⟩ writes)
    (regs : List Reg) (outside : ∀ reg ∉ regs, own reg = ⟨0, 0⟩ ∧ blindly writes reg = false) :
    op.KeepsToItsBits ⟨chip, cached, reliable⟩ ↔
      ∀ reg ∈ regs, (own reg).apply (chip reg) =
        if blindly writes reg then cached reg else chip reg := by
  rcases performAll_reliable writes chip cached with ⟨cached', performed⟩
  rw [RtcOp.KeepsToItsBits, named, performs, performed]
  constructor
  · intro keeps reg _
    exact (congrFun (keeps own rfl) reg).symm
  · intro holds own' same
    obtain rfl := Option.some.inj same
    funext reg
    by_cases member : reg ∈ regs
    · exact (holds reg member).symm
    · rcases outside reg member with ⟨bits, read⟩
      simp only [bits, read, bits_none, Bool.false_eq_true, ↓reduceIte]

theorem own_step {op : RtcOp} {own : Reg → Bits} {writes : List Write} (named : op.own = some own)
    (performs : op.perform ⟨chip, cached, reliable⟩ = performAll ⟨chip, cached, reliable⟩ writes)
    (sets : op.time time = time ∧ op.date date = date) (regs : List Reg)
    (outside : ∀ reg ∉ regs, own reg = ⟨0, 0⟩ ∧ blindly writes reg = false)
    (apart : ∀ reg ∈ regs, ¬ (reg.OfTime ∨ reg.OfDate))
    (shows : Shows ⟨chip, cached, reliable⟩ time date) :
    (op.KeepsToItsBits ⟨chip, cached, reliable⟩ ∧
        Shows (op.perform ⟨chip, cached, reliable⟩) (op.time time) (op.date date)) ↔
      ∀ reg ∈ regs, (own reg).apply (chip reg) =
        if blindly writes reg then cached reg else chip reg := by
  rw [← keeps_iff named performs regs outside, performs, sets.1, sets.2]
  constructor
  · exact fun both => both.1
  · intro keeps
    refine ⟨keeps, shows_performAll shows fun reg clock => ?_⟩
    exact (outside reg fun member => apart reg member clock).2

theorem other_step {op : RtcOp} {writes : List Write} (none_own : op.own = none)
    (performs : op.perform ⟨chip, cached, reliable⟩ = performAll ⟨chip, cached, reliable⟩ writes)
    (sets : op.time time = time ∧ op.date date = date)
    (apart : ∀ reg : Reg, reg.OfTime ∨ reg.OfDate → blindly writes reg = false)
    (shows : Shows ⟨chip, cached, reliable⟩ time date) :
    op.KeepsToItsBits ⟨chip, cached, reliable⟩ ∧
      Shows (op.perform ⟨chip, cached, reliable⟩) (op.time time) (op.date date) := by
  constructor
  · exact keeps_of_none none_own
  · rw [performs, sets.1, sets.2]
    exact shows_performAll shows apart

theorem setTime_writes (set : TimeOfDay) : ∃ hour minute second,
    userRtcSetTime set.hour set.minute set.second =
      [.put .reg4 hour, .put .reg9 minute, .put .reg2 second] := by
  rw [userRtcSetTime, if_pos (Int.natCast_nonneg set.hour), if_pos (Int.natCast_nonneg set.minute),
    if_pos (Int.natCast_nonneg set.second)]
  exact ⟨_, _, _, rfl⟩

theorem setDays_writes (set : Date) : ∃ day month century year,
    userRtcSetDays set.year set.months set.days =
      [.put .reg5 day, .modify .reg7 month, .modify .reg7 century, .put .reg8 year] := by
  rcases set with ⟨year, months, days, ⟨first, last⟩, ⟨_, december⟩, month⟩
  have days_range : (0 : Int) ≤ days ∧ (days : Int) ≤ 31 := by omega
  have months_range : (0 : Int) ≤ months ∧ (months : Int) ≤ 12 := by omega
  rw [userRtcSetDays, if_pos days_range, if_pos months_range]
  by_cases old : year < 2000
  · have range : (1900 : Int) ≤ year ∧ (year : Int) < 2000 := by omega
    rw [if_pos range]
    exact ⟨_, _, _, _, rfl⟩
  · have range : ¬ ((1900 : Int) ≤ year ∧ (year : Int) < 2000) := by omega
    have range' : (2000 : Int) ≤ year ∧ (year : Int) < 3000 := by omega
    rw [if_neg range, if_pos range']
    exact ⟨_, _, _, _, rfl⟩

theorem setTime_step (set : TimeOfDay) (shows : Shows ⟨chip, cached, reliable⟩ time date) :
    ((RtcOp.setTime set).KeepsToItsBits ⟨chip, cached, reliable⟩ ∧
        Shows ((RtcOp.setTime set).perform ⟨chip, cached, reliable⟩) (some set) date) ↔
      (RtcOp.setTime set).Fits ⟨chip, cached, reliable⟩ := by
  rcases setTime_writes set with ⟨hour, minute, second, writes⟩
  rcases performAll_reliable [.put .reg4 hour, .put .reg9 minute, .put .reg2 second] chip cached
    with ⟨cached', performed⟩
  have keeps : (RtcOp.setTime set).KeepsToItsBits ⟨chip, cached, reliable⟩ :=
    keeps_of_none rfl
  have untouched : shownDays (fun reg => if blindly [.put .reg4 hour, .put .reg9 minute,
      .put .reg2 second] reg then cached reg else chip reg) = shownDays chip :=
    shownDays_frame fun reg ofDate => by rcases ofDate with rfl | rfl | rfl <;> rfl
  rw [RtcOp.perform, writes, performed, shows_iff, untouched]
  constructor
  · intro holds
    have shown := holds.2.1 set rfl
    simp only [shownTime, TimeOfDay.buf, List.cons.injEq, and_true] at shown
    exact shown
  · intro fits
    rcases fits with ⟨seconds, minutes, hours⟩
    refine ⟨keeps, fun set' same => ?_, shows.2⟩
    obtain rfl := Option.some.inj same
    simp only [shownTime, TimeOfDay.buf, List.cons.injEq, and_true]
    exact ⟨seconds, minutes, hours⟩

theorem century_iff (set : Date) (value : Byte) :
    ((if value &&& 0x80 ≠ 0 then 19 else 20) = BitVec.ofNat 8 (set.year / 100)) ↔
      (value &&& 0x80 ≠ 0 ↔ set.year < 2000) := by
  rcases set with ⟨year, _, _, ⟨first, last⟩, _, _⟩
  by_cases old : year < 2000
  · have century : year / 100 = 19 := by omega
    by_cases bit : value &&& 128#8 = 0#8 <;> simp [century, old, bit]
  · have century : year / 100 = 20 := by omega
    by_cases bit : value &&& 128#8 = 0#8 <;> simp [century, old, bit]

theorem setDays_step (set : Date) (shows : Shows ⟨chip, cached, reliable⟩ time date) :
    ((RtcOp.setDays set).KeepsToItsBits ⟨chip, cached, reliable⟩ ∧
        Shows ((RtcOp.setDays set).perform ⟨chip, cached, reliable⟩) time (some set)) ↔
      (RtcOp.setDays set).Fits ⟨chip, cached, reliable⟩ := by
  rcases setDays_writes set with ⟨day, month, century, year, writes⟩
  rcases performAll_reliable [.put .reg5 day, .modify .reg7 month, .modify .reg7 century,
    .put .reg8 year] chip cached with ⟨cached', performed⟩
  have keeps : (RtcOp.setDays set).KeepsToItsBits ⟨chip, cached, reliable⟩ :=
    keeps_of_none rfl
  have untouched : shownTime (fun reg => if blindly [.put .reg5 day, .modify .reg7 month,
      .modify .reg7 century, .put .reg8 year] reg then cached reg else chip reg) = shownTime chip :=
    shownTime_frame fun reg ofTime => by rcases ofTime with rfl | rfl | rfl <;> rfl
  have shown : shownDays (fun reg => if blindly [.put .reg5 day, .modify .reg7 month,
      .modify .reg7 century, .put .reg8 year] reg then cached reg else chip reg) =
      [changeHexToInt (cached .reg5 &&& 0x3f), changeHexToInt (chip .reg7 &&& 0x1f),
        cached .reg8 &&& 0xff, if chip .reg7 &&& 0x80 ≠ 0 then 19 else 20] := rfl
  have whole : cached .reg8 &&& 0xff = cached .reg8 := BitVec.and_allOnes
  have fits_iff : shownDays (fun reg => if blindly [.put .reg5 day, .modify .reg7 month,
      .modify .reg7 century, .put .reg8 year] reg then cached reg else chip reg) = set.buf ↔
      (RtcOp.setDays set).Fits ⟨chip, cached, reliable⟩ := by
    rw [shown, whole, Date.buf]
    simp only [List.cons.injEq, and_true, century_iff]
    rfl
  rw [RtcOp.perform, writes, performed, shows_iff, untouched]
  constructor
  · exact fun holds => fits_iff.mp (holds.2.2 set rfl)
  · intro fits
    refine ⟨keeps, shows.1, fun set' same => ?_⟩
    obtain rfl := Option.some.inj same
    exact fits_iff.mpr fits

theorem read_step {op : RtcOp} {cached' : Reg → Byte} (none_own : op.own = none)
    (performs : op.perform ⟨chip, cached, reliable⟩ = ⟨chip, cached', reliable⟩)
    (sets : op.time time = time ∧ op.date date = date)
    (shows : Shows ⟨chip, cached, reliable⟩ time date) :
    op.KeepsToItsBits ⟨chip, cached, reliable⟩ ∧
      Shows (op.perform ⟨chip, cached, reliable⟩) (op.time time) (op.date date) := by
  constructor
  · exact keeps_of_none none_own
  · rw [performs, sets.1, sets.2]
    exact shows

/-- An initialisation stops at a chip that does not answer, and writes otherwise. -/
theorem init_reliable (chip cached : Reg → Byte) :
    RtcOp.init.perform ⟨chip, cached, reliable⟩ =
        ⟨chip, Function.update cached .reg0 (chip .reg0), reliable⟩ ∨
      RtcOp.init.perform ⟨chip, cached, reliable⟩ =
        performAll ⟨chip, Function.update cached .reg0 (chip .reg0), reliable⟩ pcf8563Init := by
  by_cases silent : chip .reg0 = 255#8
  · exact Or.inl (by simp [RtcOp.perform, userRtcInit, userRtcVerify, silent])
  · exact Or.inr (by simp [RtcOp.perform, userRtcInit, userRtcVerify, silent])

theorem init_step (shows : Shows ⟨chip, cached, reliable⟩ time date) :
    RtcOp.init.KeepsToItsBits ⟨chip, cached, reliable⟩ ∧
      Shows (RtcOp.init.perform ⟨chip, cached, reliable⟩) time date := by
  have apart : ∀ reg : Reg, reg.OfTime ∨ reg.OfDate → blindly pcf8563Init reg = false := by
    intro reg clock
    rcases clock with (rfl | rfl | rfl) | rfl | rfl | rfl <;> rfl
  have shows' : Shows ⟨chip, Function.update cached .reg0 (chip .reg0), reliable⟩ time date := shows
  constructor
  · exact keeps_of_none rfl
  · rcases init_reliable chip cached with silent | written
    · rw [silent]
      exact shows'
    · rw [written]
      exact shows_performAll shows' apart

theorem performs_reliable (op : RtcOp) (chip cached : Reg → Byte) : ∃ chip' cached',
    op.perform ⟨chip, cached, reliable⟩ = ⟨chip', cached', reliable⟩ := by
  have writes : ∀ writes cached, ∃ chip' cached',
      performAll ⟨chip, cached, reliable⟩ writes = ⟨chip', cached', reliable⟩ := by
    intro writes cached
    rcases performAll_reliable writes chip cached with ⟨cached', performed⟩
    exact ⟨_, cached', performed⟩
  cases op with
  | init =>
      rcases init_reliable chip cached with silent | written
      · exact ⟨_, _, silent⟩
      · rw [written]
        exact writes _ _
  | getTime =>
      rcases userRtcGetTime_reliable chip cached with ⟨cached', reads⟩
      exact ⟨chip, cached', congrArg Prod.snd reads⟩
  | getDays =>
      rcases userRtcGetDays_reliable chip cached with ⟨cached', reads⟩
      exact ⟨chip, cached', congrArg Prod.snd reads⟩
  | getFlag =>
      rcases userRtcGetFlag_reliable chip cached with ⟨cached', reads⟩
      exact ⟨chip, cached', reads⟩
  | chipChanges registers => exact ⟨registers, cached, rfl⟩
  | _ => exact writes _ _

theorem setWeekData_apart (weekData : Int) (reg : Reg) (clock : reg.OfTime ∨ reg.OfDate) :
    blindly (userRtcSetWeekData weekData) reg = false := by
  rw [userRtcSetWeekData]
  split <;> rcases clock with (rfl | rfl | rfl) | rfl | rfl | rfl <;> rfl

theorem setAlarm_apart (hour minute : Int) (reg : Reg) (clock : reg.OfTime ∨ reg.OfDate) :
    blindly (userRtcSetAlarm hour minute) reg = false := by
  rw [userRtcSetAlarm]
  split <;> split <;> rcases clock with (rfl | rfl | rfl) | rfl | rfl | rfl <;> rfl

theorem setTimer_apart (timerFrequency : Int) (value : Byte) (reg : Reg)
    (clock : reg.OfTime ∨ reg.OfDate) :
    blindly (userRtcSetTimer timerFrequency value) reg = false := by
  rw [userRtcSetTimer]
  split <;> rcases clock with (rfl | rfl | rfl) | rfl | rfl | rfl <;> rfl

theorem clkoutFrequencyHZ_apart (frequency : Int) (reg : Reg) (clock : reg.OfTime ∨ reg.OfDate) :
    blindly (userRtcClkoutFrequencyHZ frequency) reg = false := by
  rw [userRtcClkoutFrequencyHZ]
  split <;> rcases clock with (rfl | rfl | rfl) | rfl | rfl | rfl <;> rfl

theorem chipChanges_step (registers : Reg → Byte) :
    (RtcOp.chipChanges registers).KeepsToItsBits ⟨chip, cached, reliable⟩ ∧
      Shows ((RtcOp.chipChanges registers).perform ⟨chip, cached, reliable⟩) none none := by
  constructor
  · exact keeps_of_none rfl
  · constructor
    · intro set member
      cases member
    · intro set member
      cases member

/-- Each operation does what it is for exactly when it fits what it meets. -/
theorem step_iff (op : RtcOp) (shows : Shows ⟨chip, cached, reliable⟩ time date) :
    (op.KeepsToItsBits ⟨chip, cached, reliable⟩ ∧
        Shows (op.perform ⟨chip, cached, reliable⟩) (op.time time) (op.date date)) ↔
      op.Fits ⟨chip, cached, reliable⟩ := by
  cases op with
  | init => exact ⟨fun _ => trivial, fun _ => init_step shows⟩
  | setTime set => exact setTime_step set shows
  | setDays set => exact setDays_step set shows
  | getTime => exact ⟨fun _ => trivial, fun _ => read_step rfl rfl ⟨rfl, rfl⟩ shows⟩
  | getDays => exact ⟨fun _ => trivial, fun _ => read_step rfl rfl ⟨rfl, rfl⟩ shows⟩
  | getFlag => exact ⟨fun _ => trivial, fun _ => read_step rfl rfl ⟨rfl, rfl⟩ shows⟩
  | setWeekData weekData =>
      exact ⟨fun _ => trivial,
        fun _ => other_step rfl rfl ⟨rfl, rfl⟩ (setWeekData_apart _) shows⟩
  | setAlarm hour minute =>
      exact ⟨fun _ => trivial,
        fun _ => other_step rfl rfl ⟨rfl, rfl⟩ (setAlarm_apart _ _) shows⟩
  | setTimer timerFrequency value =>
      exact ⟨fun _ => trivial,
        fun _ => other_step rfl rfl ⟨rfl, rfl⟩ (setTimer_apart _ _) shows⟩
  | clkoutFrequencyHZ frequency =>
      exact ⟨fun _ => trivial,
        fun _ => other_step rfl rfl ⟨rfl, rfl⟩ (clkoutFrequencyHZ_apart _) shows⟩
  | chipChanges registers => exact ⟨fun _ => trivial, fun _ => chipChanges_step registers⟩
  | alarmEnable =>
      rw [own_step rfl rfl ⟨rfl, rfl⟩ [.reg1, .reg9, .regA, .regB, .regC] (by decide) (by decide)
        shows]
      simp [RtcOp.Fits, RtcState.Has, blindly, userRtcAlarmEnable, bits_all_iff]
  | alarmDisable =>
      rw [own_step rfl rfl ⟨rfl, rfl⟩ [.reg1, .reg9, .regA, .regB, .regC] (by decide) (by decide)
        shows]
      simp [RtcOp.Fits, RtcState.Has, blindly, userRtcAlarmDisable, bits_all_iff]
  | timerEnable =>
      rw [own_step rfl rfl ⟨rfl, rfl⟩ [.reg1, .regE] (by decide) (by decide) shows]
      simp [RtcOp.Fits, RtcState.Has, blindly, userRtcTimerEnable]
  | timerDisable =>
      rw [own_step rfl rfl ⟨rfl, rfl⟩ [.reg1, .regE] (by decide) (by decide) shows]
      simp [RtcOp.Fits, RtcState.Has, blindly, userRtcTimerDisable]
  | cleareAFFlag =>
      rw [own_step rfl rfl ⟨rfl, rfl⟩ [.reg1] (by decide) (by decide) shows]
      simp [RtcOp.Fits, RtcState.Has, blindly, userRtcCleareAFFlag]
  | cleareTFFlag =>
      rw [own_step rfl rfl ⟨rfl, rfl⟩ [.reg1] (by decide) (by decide) shows]
      simp [RtcOp.Fits, RtcState.Has, blindly, userRtcCleareTFFlag]
  | clkoutEnable =>
      rw [own_step rfl rfl ⟨rfl, rfl⟩ [.regD] (by decide) (by decide) shows]
      simp [RtcOp.Fits, RtcState.Has, blindly, userRtcClkoutEnable]
  | clkoutDisable =>
      rw [own_step rfl rfl ⟨rfl, rfl⟩ [.regD] (by decide) (by decide) shows]
      simp [RtcOp.Fits, RtcState.Has, blindly, userRtcClkoutDisable]

end Operations

/-! ## Runs -/

theorem Disciplined.shows {s : RtcState} {time : Option TimeOfDay} {date : Option Date}
    {ops : List RtcOp} (disciplined : Disciplined s time date ops) : Shows s time date := by
  cases ops with
  | nil => exact disciplined
  | cons op rest => exact disciplined.1

private theorem disciplined_iff_fits {chip cached : Reg → Byte} {time : Option TimeOfDay}
    {date : Option Date} (shows : Shows ⟨chip, cached, reliable⟩ time date) (ops : List RtcOp) :
    Disciplined ⟨chip, cached, reliable⟩ time date ops ↔ AllFit ⟨chip, cached, reliable⟩ ops := by
  induction ops generalizing chip cached time date with
  | nil => exact ⟨fun _ => trivial, fun _ => shows⟩
  | cons op rest ih =>
      have step := step_iff op shows
      rcases performs_reliable op chip cached with ⟨chip', cached', performed⟩
      rw [performed] at step
      rw [Disciplined, AllFit, performed]
      constructor
      · intro holds
        rcases holds with ⟨_, keeps, later⟩
        have shows' := later.shows
        exact ⟨step.mp ⟨keeps, shows'⟩, (ih shows').mp later⟩
      · intro fit
        rcases step.mpr fit.1 with ⟨keeps, shows'⟩
        exact ⟨shows, keeps, (ih shows').mpr fit.2⟩

/-- For all contents of the chip and of the cached bytes, every sequence of operations and all
that the chip does by itself between them: what was set is got, and bits change as they should,
exactly as long as each operation finds on the chip and in the cache what it was to write. -/
theorem rtc_disciplined_iff (chip cached : Reg → Byte) (ops : List RtcOp) :
    Disciplined ⟨chip, cached, reliable⟩ none none ops ↔ AllFit ⟨chip, cached, reliable⟩ ops := by
  apply disciplined_iff_fits
  constructor
  · intro set member
    cases member
  · intro set member
    cases member

/-- With all bytes 0, a time that is set is not got, and the timer is not enabled. -/
theorem time_not_set :
    ¬ Disciplined ⟨fun _ => 0, fun _ => 0, reliable⟩ none none
        [.setTime ⟨12, 34, 56, by decide, by decide, by decide⟩] ∧
      ¬ Disciplined ⟨fun _ => 0, fun _ => 0, reliable⟩ none none [.timerEnable] := by
  constructor
  · intro holds
    have shown := holds.2.2.1 _ rfl
    revert shown
    decide
  · intro holds
    have bits := congrFun (holds.2.1 _ rfl) .reg1
    revert bits
    decide

end Baelux.User.Rtc
