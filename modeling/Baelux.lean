import Baelux.Library.Effect
import Baelux.Library.AppendLog
import Baelux.Flash.Device
import Baelux.Flash.Driver
import Baelux.Eeprom.Element
import Baelux.Eeprom.Store
import Baelux.Eeprom.Layout
import Baelux.Eeprom.Rules
import Baelux.Eeprom.Write
import Baelux.Eeprom.Transfer
import Baelux.Eeprom.Update
import Baelux.Eeprom.SequentialStore
import Baelux.Eeprom.Recovery
import Baelux.Eeprom.SinglePage
import Baelux.Eeprom.Adoption
import Baelux.Nvm.Record
import Baelux.Nvm.Confinement
import Baelux.Nvm.BankConfinement
import Baelux.Nvm.ResetRecovery
import Baelux.Nvm.Saving
import Baelux.Nvm.RoundTrip
import Baelux.Nvm.TornRecord
import Baelux.Library.Ring
import Baelux.User.RingBuffer
import Baelux.Library.Chain
import Baelux.Zigbee.ServerList
import Baelux.Zigbee.ServerListOrder
import Baelux.Buttons.Button
import Baelux.Buttons.ShortPress
import Baelux.Library.Nesting
import Baelux.Zigbee.Application
import Baelux.Zigbee.Sequencer
import Baelux.Zigbee.StartupWait
import Baelux.Zigbee.StartupAgreement
import Baelux.Eeprom.Calls
import Baelux.Zigbee.SaveWait
import Baelux.Zigbee.SaveSnapshot
import Baelux.Zigbee.SingleWriter
import Baelux.Zigbee.ServerCursor
import Baelux.Zigbee.ServerTimeouts
import Baelux.Library.Buffer
import Baelux.Zigbee.Cluster
import Baelux.Zigbee.ClusterClient
import Baelux.Zigbee.HexDigits
import Baelux.Zigbee.ServerToServer
import Baelux.Zigbee.FrameParser
import Baelux.User.Pipeline
import Baelux.Buttons.EventTrace
import Baelux.Flash.Ownership
import Baelux.Nvm.Ownership
import Baelux.Zigbee.Boot
import Baelux.Zigbee.Initialisation
import Baelux.Library.Table
import Baelux.Buttons.Registry
import Baelux.Library.Rounds
import Baelux.Zigbee.ServerRounds
import Baelux.Zigbee.ServerSilence
import Baelux.Buttons.PressDuration
import Baelux.Zigbee.AddressRecovery
import Baelux.Zigbee.BinaryCommands
import Baelux.Zigbee.CacheBounds
import Baelux.Eeprom.Mounting
import Baelux.Nvm.AutoClean
import Baelux.Nvm.Verdict
import Baelux.Library.Preemption
import Baelux.Zigbee.CommandBuffer
import Baelux.Zigbee.ClientList
import Baelux.Library.Ledger
import Baelux.Zigbee.ClusterTables
import Baelux.User.Rtc
import Baelux.Eeprom.Contents
import Baelux.Eeprom.Dump
import Baelux.Library.Thread
import Baelux.Timers.TimerServer
import Baelux.Timers.TimerList
import Baelux.Timers.Remote
import Baelux.Timers.SleepTimer
import Baelux.Library.Simulation
import Baelux.Library.KernelSimulation
import Baelux.Sequencer.Registers
import Baelux.Sequencer.Machine
import Baelux.Sequencer.Scripts
import Baelux.Sequencer.Discipline
import Baelux.Sequencer.Refinement
import Baelux.Sequencer.Hosting
import Baelux.Library.RoundRobin
import Baelux.Sequencer.Fairness
import Baelux.Zigbee.OnSequencer
import Baelux.Ipcc.Peripheral
import Baelux.Zigbee.Mailbox
import Baelux.Zigbee.MailboxLines
import Baelux.Zigbee.Delivery
import Baelux.Timers.Counting
import Baelux.Timers.Clock
import Baelux.Timers.Sections
import Baelux.Timers.Deadlines
import Baelux.Timers.SleepDelay
import Baelux.Library.Painting
import Baelux.Lcd.FrameBuffer
import Baelux.Lcd.Picture
import Baelux.Lcd.Bitmap
import Baelux.Lcd.Session
import Baelux.Library.Raster
import Baelux.Lcd.Utility
import Baelux.Lcd.Line
import Baelux.Lcd.Polygon
import Baelux.Lcd.Rectangle
import Baelux.Lcd.Circle
import Baelux.Lcd.Disk
import Baelux.Library.Loop
import Baelux.Ipcc.Queues
